import TemplateTypes.Server.Client
import Mathlib.Order.Defs.Unbundled

namespace TemplateTypes.Client

abbrev World := Client × List Effect

section

variable {α β : Type}

theorem bind_apply (a : Act α) (f : α → Act β) (s : World) : (a >>= f) s = f (a s).1 (a s).2 := rfl

theorem pure_apply (a : α) (s : World) : (pure a : Act α) s = (a, s) := rfl

theorem read_apply (s : World) : read s = (s.1, s) := rfl

theorem update_apply (f : Client → Client) (s : World) : update f s = ((), f s.1, s.2) := rfl

theorem emit_apply (e : Effect) (s : World) : emit e s = ((), s.1, s.2 ++ [e]) := rfl

end

/-- What is done next, by what came of writing. -/
def Sent.elim {α : Type} (done : α) (failed : WriteError → α) (waits : α) : Sent → α
  | .done => done
  | .failed e => failed e
  | .waits => waits

/-- Whatever the world is before the act, the relation holds between it and the world after. -/
def Ensures {α : Type} (R : World → World → Prop) (a : Act α) : Prop := ∀ s, R s (a s).2

section

variable {α β : Type} {R S T : World → World → Prop}

theorem Ensures.mono {a : Act α} (ensured : Ensures R a) (weaker : ∀ s t, R s t → S s t) :
    Ensures S a :=
  fun s => weaker _ _ (ensured s)

theorem ensures_emit {e : Effect} (holds : ∀ c effects, R (c, effects) (c, effects ++ [e])) :
    Ensures R (emit e) :=
  fun s => holds s.1 s.2

theorem ensures_update {f : Client → Client} (holds : ∀ c effects, R (c, effects) (f c, effects)) :
    Ensures R (update f) :=
  fun s => holds s.1 s.2

theorem ensures_pure [Std.Refl R] (a : α) : Ensures R (pure a) := fun s => refl_of R s

theorem Ensures.followed {a : Act α} {f : α → Act β} (first : Ensures R a)
    (second : ∀ x, Ensures S (f x)) (compose : ∀ {s t u}, R s t → S t u → T s u) :
    Ensures T (a >>= f) :=
  fun s => compose (first s) (second _ _)

theorem Ensures.bind [IsTrans World R] {a : Act α} {f : α → Act β} (first : Ensures R a)
    (second : ∀ x, Ensures R (f x)) : Ensures R (a >>= f) :=
  first.followed second (trans_of R)

theorem ensures_look {f : Client → Act β} (holds : ∀ c, Ensures R (f c)) :
    Ensures R (read >>= f) :=
  fun s => holds s.1 s

theorem ensures_read_bind {f : Client → Act β} (holds : ∀ s : World, R s ((f s.1) s).2) :
    Ensures R (read >>= f) :=
  holds

end

theorem withTask_of_none {call : Nat} {f : CallTask → Act Unit} {s : World}
    (there : s.1.task? call = none) : withTask call f s = ((), s) := by
  unfold withTask
  rw [bind_apply, read_apply]
  dsimp only
  rw [there]
  rfl

theorem withTask_of_some {call : Nat} {f : CallTask → Act Unit} {s : World} {t : CallTask}
    (there : s.1.task? call = some t) : withTask call f s = f t s := by
  unfold withTask
  rw [bind_apply, read_apply]
  dsimp only
  rw [there]

theorem ensures_withTask {R : World → World → Prop} [Std.Refl R] {call : Nat}
    {f : CallTask → Act Unit} (holds : ∀ t, Ensures R (f t)) : Ensures R (withTask call f) := by
  refine ensures_look fun c => ?_
  split
  · exact holds _
  · exact ensures_pure _

def readOn (process fuel : Nat) : Option ReaderState → Act Unit
  | some state => endReader process state
  | none => readMessages process fuel

end Client

def ReaderState.isOver : ReaderState → Bool
  | .reading => false
  | _ => true

namespace Client

theorem isOver_readerEnd (e : FrameError) : (readerEnd e).isOver = true := by
  unfold readerEnd
  split <;> rfl

theorem isOver_replyEnd (e : WriteError) : (replyEnd e).isOver = true := by
  unfold replyEnd
  split <;> rfl

theorem isOver_of_handle {process : Nat} {payload : Json} {s : World} {state : ReaderState}
    (stopped : (handle process payload s).1 = some state) : state.isOver = true := by
  unfold handle at stopped
  cases means : Message.meaning payload with
  | error fault =>
    rw [means] at stopped
    obtain rfl := Option.some.inj stopped
    rfl
  | ok meaning =>
    rw [means] at stopped
    cases meaning with
    | nothing => cases stopped
    | question id =>
      dsimp only at stopped
      rw [bind_apply] at stopped
      cases sent : (send (.reader process) (Message.reply id) none s).1 with
      | failed e =>
        rw [sent] at stopped
        obtain rfl := Option.some.inj stopped
        exact isOver_replyEnd e
      | _ =>
        rw [sent] at stopped
        cases stopped
    | response id error result =>
      rcases id with _ | ⟨request⟩ | ⟨below⟩
      · cases stopped
      · dsimp only at stopped
        rw [bind_apply, read_apply] at stopped
        dsimp only at stopped
        split at stopped
        · cases told : Message.responseOutcome error result with
          | error fault =>
            rw [told] at stopped
            obtain rfl := Option.some.inj stopped
            rfl
          | ok outcome =>
            rw [told] at stopped
            cases stopped
        · cases stopped
      · cases stopped

section

variable {R : World → World → Prop} {process : Nat}

/-- Reading takes messages, deals with each and may end the reader. -/
theorem ensures_readMessages_of [Std.Refl R] [IsTrans World R]
    (ends : ∀ state, state.isOver = true → Ensures R (endReader process state))
    (takes : ∀ (s : World) (p : ServerProcess) (rest : Bytes),
      s.1.processes[process]? = some p → p.reader = .reading →
        R s (s.1.setProcess process { p with unread := rest }, s.2))
    (handles : ∀ payload, Ensures R (handle process payload)) (fuel : Nat) :
    Ensures R (readMessages process fuel) := by
  induction fuel with
  | zero => exact ensures_pure _
  | succ fuel ih =>
    refine ensures_read_bind fun s => ?_
    cases s.1.isWriting (.reader process) with
    | true => exact refl_of R s
    | false =>
      cases there : s.1.processes[process]? with
      | none => exact refl_of R s
      | some p =>
        obtain ⟨alive, unread, ended, reader, nesting, input⟩ := p
        cases reader with
        | finished => exact refl_of R s
        | crashed fault => exact refl_of R s
        | reading =>
          dsimp only [Bool.false_eq_true, ↓reduceIte]
          cases Frame.next nesting unread ended with
          | wait => exact refl_of R s
          | ended => exact ends _ rfl s
          | failed e rest => exact ends _ (isOver_readerEnd e) s
          | message payload rest =>
            have taken := takes s _ rest there rfl
            have goesOn : Ensures R (handle process payload >>= readOn process fuel) := by
              intro t
              rw [bind_apply]
              refine trans_of R (handles payload t) ?_
              cases stopped : (handle process payload t).1 with
              | some state => exact ends state (isOver_of_handle stopped) _
              | none => exact ih _
            cases payload with
            | null => exact ends _ rfl s
            | _ => exact trans_of R taken (goesOn _)

end

def withWrites (writes : List Writing) (c : Client) : Client := { c with writes }

section

variable {R S T : World → World → Prop} {writer : Writer} {payload : Json} {limit : Option Int}

/-- Writing changes the writes that are under way and, if it comes to that, does the one write. -/
theorem ensures_put_of [Std.Refl R] [IsTrans World R]
    (queues : ∀ f : List Writing → List Writing,
      Ensures R (update fun c => { c with writes := f c.writes }))
    (writes : ∀ process, Ensures R (emit (.write process payload))) :
    Ensures R (put writer payload limit) := by
  refine ensures_look fun c => ?_
  split
  · exact ensures_pure _
  · rename_i process _
    split
    · exact ensures_pure _
    · exact (writes process).bind fun _ => ensures_pure _
    · exact (queues fun ws => ⟨writer, payload, limit, .draining process⟩ :: ws).bind fun _ =>
        (writes process).bind fun _ => ensures_pure _

theorem ensures_send_of [Std.Refl R] [IsTrans World R]
    (queues : ∀ f : List Writing → List Writing,
      Ensures R (update fun c => { c with writes := f c.writes }))
    (writes : ∀ process, Ensures R (emit (.write process payload))) :
    Ensures R (send writer payload limit) := by
  refine ensures_look fun c => ?_
  split
  · exact ensures_pure _
  · split
    · exact ensures_put_of queues writes
    · exact (queues fun ws => ws ++ [⟨writer, payload, limit, .queued⟩]).bind fun _ =>
        ensures_pure _

theorem ensures_resumeWrite_of [Std.Refl R] [IsTrans World R]
    (queues : ∀ f : List Writing → List Writing,
      Ensures R (update fun c => { c with writes := f c.writes }))
    (writes : ∀ process payload, Ensures R (emit (.write process payload))) :
    Ensures R (resumeWrite writer) := by
  refine ensures_look fun c => ?_
  split
  · rename_i w more _ _
    refine (queues fun _ => more).bind fun _ => ?_
    split
    · exact ensures_pure _
    · exact ensures_pure _
    · exact ensures_put_of queues fun process => writes process w.payload
  · exact ensures_pure _

theorem ensures_sendThen_of {call : Nat} {stage : Stage} {next : Option WriteError → Act Unit}
    (sends : Ensures R (send (.call call) payload limit)) (waits : Ensures S (wait call stage none))
    (goes : ∀ failure, Ensures S (next failure)) (compose : ∀ {s t u}, R s t → S t u → T s u) :
    Ensures T (sendThen call stage limit payload next) := by
  refine sends.followed (fun sent => ?_) compose
  cases sent with
  | done => exact goes none
  | failed e => exact goes (some e)
  | waits => exact waits

end

def EachStep (P : Client → Int → Event → Prop) : Client → List (Int × Event) → Prop
  | _, [] => True
  | c, (now, e) :: more => P c now e ∧ EachStep P (step now c e).1 more

instance EachStep.decidable {P : Client → Int → Event → Prop} [∀ c now e, Decidable (P c now e)] :
    ∀ c events, Decidable (EachStep P c events)
  | _, [] => inferInstanceAs (Decidable True)
  | c, (now, e) :: more =>
    have : Decidable (EachStep P (step now c e).1 more) := EachStep.decidable _ more
    inferInstanceAs (Decidable (P c now e ∧ EachStep P (step now c e).1 more))

end TemplateTypes.Client
