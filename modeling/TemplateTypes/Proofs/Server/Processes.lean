import TemplateTypes.Proofs.Server.Stillness

namespace TemplateTypes

namespace Client

/-- The same processes live. Either nothing has changed and no call has returned, or the call has
    returned and no process is current any more. -/
structure Closing (call : Nat) (before after : World) : Prop where
  alive : after.1.aliveness = before.1.aliveness
  ended : (after.1.current = before.1.current ∧
      after.2.filterMap Effect.returned? = before.2.filterMap Effect.returned?) ∨
    (after.1.current = none ∧ call ∈ after.2.filterMap Effect.returned?)

theorem Quiet.closing {s t : World} (call : Nat) (quiet : Quiet s t) : Closing call s t :=
  ⟨quiet.alive, .inl ⟨quiet.current, quiet.returned⟩⟩

theorem Quiet.trans_closing {s t u : World} {call : Nat} (first : Quiet s t)
    (second : Closing call t u) : Closing call s u := by
  refine ⟨second.alive.trans first.alive, ?_⟩
  rcases second.ended with ⟨current, returned⟩ | ended
  · exact .inl ⟨current.trans first.current, returned.trans first.returned⟩
  · exact .inr ended

theorem Ensures.closing {α : Type} {a : Act α} (call : Nat) (quiet : Ensures Quiet a) :
    Ensures (Closing call) a :=
  quiet.mono fun _ _ between => between.closing call

theorem ensures_forgetProcess (call : Nat) : Ensures (Closing call) (forgetProcess call) := by
  intro s
  refine ⟨rfl, .inr ⟨rfl, List.mem_filterMap.mpr ⟨.finish call (.value .null), ?_, rfl⟩⟩⟩
  exact List.mem_append_right s.2 List.mem_cons_self

theorem ensures_stopReader (call : Nat) : Ensures (Closing call) (stopReader call) := by
  refine ensures_look fun c => ?_
  split
  · exact ensures_forgetProcess call
  · split
    · exact ((ensures_unwrite _).bind fun _ =>
        (ensures_endReader _ _).bind fun _ => ensures_wait _ _ _).closing call
    · exact (ensures_leave_quiet rfl).closing call
    · exact ensures_forgetProcess call

theorem ensures_kill (call : Nat) : Ensures (Closing call) (kill call) := by
  refine ensures_look fun c => ?_
  split
  · exact (ensures_leave_quiet rfl).closing call
  · split
    · refine ((ensures_wait _ _ _).bind fun _ => ensures_emit fun _ _ => ?_).closing call
      exact ⟨⟨rfl, rfl⟩, by simp [Effect.returned?]⟩
    · exact ensures_stopReader call

theorem ensures_untold (call : Nat) (e : WriteError) :
    Ensures (Closing call) (untold call e) := by
  cases e with
  | unknownProcess => exact (ensures_leave_quiet rfl).closing call
  | _ => exact ensures_kill call

theorem ensures_farewellSent (now : Int) (call : Nat) (failure : Option WriteError) :
    Ensures (Closing call) (farewellSent now call failure) := by
  cases failure with
  | some e => exact ensures_untold call e
  | none =>
    refine ensures_look fun c => ?_
    split
    · exact (ensures_leave_quiet rfl).closing call
    · exact (ensures_wait _ _ _).closing call

theorem ensures_farewell (now : Int) (call : Nat) (outcome : Except Fault Json) :
    Ensures (Closing call) (farewell now call outcome) := by
  cases outcome with
  | error fault => exact ensures_kill call
  | ok result =>
    exact ensures_sendThen (Quiet.closing call) Quiet.trans_closing (ensures_farewellSent now call)

theorem ensures_shutDown (now : Int) (call : Nat) : Ensures (Closing call) (shutDown now call) := by
  refine ensures_read_bind fun s => ?_
  cases current : s.1.current with
  | none =>
    refine ⟨rfl, .inr ⟨current, List.mem_filterMap.mpr ⟨.finish call (.value .null), ?_, rfl⟩⟩⟩
    exact List.mem_append_right s.2 List.mem_cons_self
  | some process =>
    cases running : s.1.isRunning with
    | false => exact ensures_stopReader call s
    | true =>
      have asks : Ensures (Closing call)
          (ask now call .shutdownAnswer patience "shutdown".toList (.obj []) (untold call)) :=
        ensures_ask (Quiet.closing call) Quiet.trans_closing (ensures_untold call)
      exact asks s

end Client

def Stage.isClosing : Stage → Bool
  | .shutdownAnswer _ | .farewell | .exit _ | .killedExit _ | .readerEnd _ => true
  | _ => false

def CallTask.Goes (t : CallTask) : Client.World → Client.World → Prop :=
  if t.stage.isClosing then Client.Closing t.call else Client.Still

namespace Client

theorem ensures_takeOutcome {R : World → World → Prop} (request : Nat)
    {next : Except Fault Json → Act Unit} (quiet : ∀ {s t}, Quiet s t → R s t)
    (compose : ∀ {s t u}, Quiet s t → R t u → R s u) (goes : ∀ outcome, Ensures R (next outcome)) :
    Ensures R (takeOutcome request next) := by
  refine ensures_look fun c => ?_
  split
  · exact (ensures_pure _).mono fun _ _ => quiet
  · exact (ensures_forget request).followed (fun _ => goes _) compose

theorem Quiet.goes {s u : World} (t : CallTask) (quiet : Quiet s u) : t.Goes s u := by
  unfold CallTask.Goes
  split
  · exact quiet.closing t.call
  · exact quiet.toStill

theorem ensures_resume (now : Int) (t : CallTask) : Ensures t.Goes (resume now t) := by
  obtain ⟨call, stage, deadline⟩ := t
  cases stage with
  | startTurn after => exact ensures_takeTurn call after
  | handshake request after =>
    exact ensures_takeOutcome request Quiet.toStill Quiet.trans_still (ensures_greeted call after)
  | answer request method use =>
    exact ensures_takeOutcome request Quiet.toStill Quiet.trans_still
      (ensures_finishAnswer call use)
  | shutdownAnswer request =>
    exact ensures_takeOutcome request (Quiet.closing call) Quiet.trans_closing
      (ensures_farewell now call)
  | farewell => exact (ensures_pure _).closing call
  | exit process => exact ensures_stopReader call
  | killedExit process => exact ensures_stopReader call
  | readerEnd process => exact ensures_forgetProcess call
  | _ => exact (ensures_pure _).still

theorem ensures_wrote (now : Int) (t : CallTask) (limit : Option Int)
    (failure : Option WriteError) : Ensures t.Goes (wrote now t limit failure) := by
  obtain ⟨call, stage, deadline⟩ := t
  cases stage with
  | greeting after => exact ensures_greetingSent call after failure
  | opening q => exact ensures_documentSent now call q failure
  | lastWrite outcome => exact ensures_lastSent call outcome failure
  | farewell => exact ensures_farewellSent now call failure
  | handshake request after =>
    cases failure with
    | none => exact (ensures_setDeadline _ _).still
    | some e => exact ((ensures_forget request).bind fun _ => ensures_startFailed call _).still
  | answer request method use =>
    cases failure with
    | none => exact (ensures_setDeadline _ _).still
    | some e => exact (ensures_forget request).still.bind fun _ => ensures_finishAnswer call use _
  | shutdownAnswer request =>
    cases failure with
    | none => exact (ensures_setDeadline _ _).closing call
    | some e =>
      exact (ensures_forget request).followed (fun _ => ensures_untold call e) Quiet.trans_closing
  | exit process => exact (ensures_pure _).closing call
  | killedExit process => exact (ensures_pure _).closing call
  | readerEnd process => exact (ensures_pure _).closing call
  | _ => exact (ensures_pure _).still

theorem Quiet.trans_goes {s t u : World} {task : CallTask} (first : Quiet s t)
    (second : task.Goes t u) : task.Goes s u := by
  unfold CallTask.Goes at second ⊢
  cases closing : task.stage.isClosing with
  | true => exact first.trans_closing (by simpa [closing] using second)
  | false => exact first.trans_still (by simpa [closing] using second)

theorem ensures_goOnWriting (now : Int) (t : CallTask) : Ensures t.Goes (goOnWriting now t) := by
  refine ensures_look fun c => (ensures_resumeWrite _).followed (fun sent => ?_) Quiet.trans_goes
  cases sent with
  | done => exact ensures_wrote now t _ none
  | failed e => exact ensures_wrote now t _ (some e)
  | waits => exact (ensures_pure _).mono fun _ _ => Quiet.goes t

theorem ensures_expire (t : CallTask) : Ensures t.Goes (expire t) := by
  obtain ⟨call, stage, deadline⟩ := t
  cases stage with
  | handshake request after =>
    exact ((ensures_forget request).bind fun _ => ensures_startFailed call _).still
  | answer request method use =>
    exact (ensures_forget request).still.bind fun _ => ensures_finishAnswer call use _
  | shutdownAnswer request =>
    exact (ensures_forget request).followed (fun _ => ensures_kill call) Quiet.trans_closing
  | exit process => exact ensures_kill call
  | farewell => exact (ensures_pure _).closing call
  | killedExit process => exact (ensures_pure _).closing call
  | readerEnd process => exact (ensures_pure _).closing call
  | _ => exact (ensures_pure _).still

theorem ensures_cancel (t : CallTask) : Ensures t.Goes (cancel t) := by
  obtain ⟨call, stage, deadline⟩ := t
  have passed : Ensures Still (passTurn call >>= fun _ => leave call .cancelled) :=
    (ensures_passTurn call).still.bind fun _ => ensures_leave call _
  cases stage with
  | startTurn after => exact passed
  | spawning after => exact passed
  | greeting after => exact passed
  | handshake request after => exact (ensures_forget request).still.bind fun _ => passed
  | answer request method use =>
    have told : Ensures Still (forget request >>= fun _ => leave call .cancelled) :=
      (ensures_forget request).still.bind fun _ => ensures_leave call _
    cases use with
    | whole => exact told
    | candidates => exact told
    | candidatesOf uri =>
      exact (ensures_forget request).still.bind fun _ => ensures_finishWriting call _ _
  | shutdownAnswer request =>
    exact ((ensures_forget request).bind fun _ => ensures_leave_quiet rfl).closing call
  | farewell => exact (ensures_leave_quiet rfl).closing call
  | exit process => exact (ensures_leave_quiet rfl).closing call
  | killedExit process => exact (ensures_leave_quiet rfl).closing call
  | readerEnd process => exact ensures_forgetProcess call
  | _ => exact ensures_leave call _

def spawnsFor (c : Client) : Event → Bool
  | .spawned call none => (c.task? call).any fun t => (t.stage matches .spawning _)
  | _ => false

def closing? (c : Client) : Event → Option Nat
  | .begin call .shutDown => some call
  | .resume call | .expired call | .cancelled call =>
    ((c.task? call).filter (·.stage.isClosing)).map (·.call)
  | _ => none

inductive Moved (c : Client) (e : Event) (after : World) : Prop
  | spawned (accepted : c.spawnsFor e = true) (unclosed : c.closing? e = none)
    (alive : after.1.aliveness = c.aliveness ++ [true])
    (current : after.1.current = some c.processes.length)
  | died (process : Nat) (gone : e = .exited process) (refused : c.spawnsFor e = false)
    (unclosed : c.closing? e = none)
    (alive : after.1.aliveness = c.aliveness.set process false)
    (current : after.1.current = c.current)
  | closing (call : Nat) (refused : c.spawnsFor e = false) (closes : c.closing? e = some call)
    (closing : Closing call (c, []) after)
  | still (refused : c.spawnsFor e = false) (unclosed : c.closing? e = none)
    (still : Still (c, []) after)

theorem greet_adds (now : Int) (call : Nat) (after : AfterStart) (s : World) :
    (greet now call after s).2.1.aliveness = s.1.aliveness ++ [true] ∧
      (greet now call after s).2.1.current = some s.1.processes.length := by
  let replaced : Client → Client := fun c => { c with
    processes := c.processes ++ [.fresh c.setup.nesting]
    current := some c.processes.length
    reader := some c.processes.length }
  have added : (replaced s.1).aliveness = s.1.aliveness ++ [true] := by
    simp [replaced, aliveness, ServerProcess.fresh]
  have greeted : Still (replaced s.1, s.2) (greet now call after s).2 := by
    unfold greet
    rw [bind_apply, update_apply]
    exact ensures_look (fun c => ensures_ask Quiet.toStill Quiet.trans_still fun e =>
      (ensures_startFailed call e.fault).still) _
  exact ⟨greeted.alive.trans added, greeted.current⟩

theorem Moved.of_task {c : Client} {e : Event} {call : Nat} {f : CallTask → Act Unit}
    (refused : c.spawnsFor e = false)
    (closes : c.closing? e = ((c.task? call).filter (·.stage.isClosing)).map (·.call))
    (goes : ∀ t, Ensures t.Goes (f t)) : Moved c e (withTask call f (c, [])).2 := by
  cases there : c.task? call with
  | none =>
    rw [there] at closes
    rw [withTask_of_none there]
    exact .still refused closes (refl_of Still _)
  | some t =>
    have gone := goes t (c, [])
    rw [withTask_of_some there]
    unfold CallTask.Goes at gone
    cases closing : t.stage.isClosing with
    | false =>
      rw [there, Option.filter_some, closing] at closes
      exact .still refused closes (by simpa [closing] using gone)
    | true =>
      rw [there, Option.filter_some, closing] at closes
      exact .closing t.call refused closes (by simpa [closing] using gone)

theorem moved_of_spawned (now : Int) (c : Client) (call : Nat) :
    Moved c (.spawned call none) (step now c (.spawned call none)) := by
  have stepped : step now c (.spawned call none) = (withTask call _ (c, [])).2 := rfl
  rw [stepped]
  cases there : c.task? call with
  | none =>
    rw [withTask_of_none there]
    exact .still (by simp [spawnsFor, there]) rfl (refl_of Still _)
  | some t =>
    rw [withTask_of_some there]
    obtain ⟨number, stage, deadline⟩ := t
    cases stage with
    | spawning after =>
      obtain ⟨alive, current⟩ := greet_adds now call after (c, [])
      exact .spawned (by simp [spawnsFor, there]) rfl alive current
    | _ => exact .still (by simp [spawnsFor, there]) rfl (refl_of Still _)

theorem aliveness_exited (c : Client) (process : Nat) :
    (adjust process (fun p => { p with alive := false }) c).aliveness =
      c.aliveness.set process false := by
  unfold adjust
  split
  · simp [aliveness, setProcess, List.map_set]
  · rename_i unknown
    have beyond : c.aliveness.length ≤ process := by
      simpa [aliveness] using unknown
    exact (List.set_eq_of_length_le beyond).symm

theorem step_moved (now : Int) (c : Client) (e : Event) : Moved c e (step now c e) := by
  cases e with
  | begin call what =>
    cases what with
    | start => exact .still rfl rfl (ensures_enqueue call _ _)
    | request method params timeout => exact .still rfl rfl (ensures_request now call _ _ _ _ _)
    | notify method params => exact .still rfl rfl (ensures_finishWriting call _ _ _)
    | hover q => exact .still rfl rfl (ensures_request now call _ _ _ _ _)
    | hoverDocument q => exact .still rfl rfl (ensures_enqueue call _ _)
    | shutDown => exact .closing call rfl rfl (ensures_shutDown now call _)
  | spawned call failure =>
    cases failure with
    | none => exact moved_of_spawned now c call
    | some reason =>
      refine .still rfl rfl (ensures_withTask (R := Still) (fun t => ?_) (c, []))
      split
      · contradiction
      · exact ensures_look fun c => (ensures_startFailed call _).still
      · exact (ensures_pure _).still
  | document call content =>
    refine .still rfl rfl (ensures_withTask (R := Still) (fun t => ?_) (c, []))
    split
    · exact ensures_hoverContent now call _ _
    · exact ensures_leave call _
    · exact (ensures_pure _).still
  | output process bytes =>
    refine .still rfl rfl (Ensures.still ?_ (c, []))
    exact (ensures_adjust (f := fun p => { p with unread := p.unread ++ bytes })
      fun _ => rfl).bind fun _ => ensures_readOutput process
  | outputEnded process =>
    refine .still rfl rfl (Ensures.still ?_ (c, []))
    exact (ensures_adjust (f := fun p => { p with outputEnded := true })
      fun _ => rfl).bind fun _ => ensures_readOutput process
  | exited process =>
    exact .died process rfl rfl rfl (aliveness_exited c process)
      (current_adjust process (fun p => { p with alive := false }) c)
  | input process state =>
    refine .still rfl rfl (Ensures.still ?_ (c, []))
    exact (ensures_adjust (f := fun p => { p with input := p.input.next state })
      fun _ => rfl).bind fun _ => ensures_queue _
  | readerResumed process =>
    refine .still rfl rfl (Ensures.still ((ensures_resumeWrite _).bind fun sent => ?_) (c, []))
    cases sent with
    | done => exact ensures_readOutput process
    | failed e => exact ensures_endReader process _
    | waits => exact ensures_pure _
  | resume call =>
    refine Moved.of_task rfl rfl fun t => ensures_look fun c => ?_
    split
    · split
      · exact ensures_goOnWriting now t
      · exact ensures_resume now t
    · exact (ensures_pure _).mono fun _ _ => Quiet.goes t
  | expired call =>
    refine Moved.of_task rfl rfl fun t => ensures_look fun c => ?_
    split
    · exact (ensures_pure _).mono fun _ _ => Quiet.goes t
    · exact ensures_expire t
  | cancelled call =>
    exact Moved.of_task rfl rfl fun t =>
      (ensures_unwrite _).followed (fun _ => ensures_cancel t) Quiet.trans_goes

theorem isAlive_iff (c : Client) (process : Nat) :
    c.isAlive process = true ↔ c.aliveness[process]? = some true := by
  unfold isAlive aliveness
  rw [List.getElem?_map]
  cases c.processes[process]? <;> simp

theorem length_aliveness (c : Client) : c.aliveness.length = c.processes.length :=
  List.length_map ..

theorem Moved.length {c : Client} {e : Event} {after : World} (moved : Moved c e after)
    (refused : c.spawnsFor e = false) : after.1.processes.length = c.processes.length := by
  rw [← length_aliveness, ← length_aliveness]
  cases moved with
  | spawned accepted unclosed alive current =>
    rw [refused] at accepted
    cases accepted
  | died process gone refused unclosed alive current => rw [alive, List.length_set]
  | closing call refused closes closing => rw [closing.alive]
  | still refused unclosed still => rw [still.alive]

theorem isAlive_congr {c d : Client} (same : d.aliveness = c.aliveness) (process : Nat) :
    d.isAlive process = c.isAlive process := by
  rw [Bool.eq_iff_iff, isAlive_iff, isAlive_iff, same]

theorem isRunning_iff (c : Client) :
    c.isRunning = true ↔ ∃ process, c.current = some process ∧ c.isAlive process = true := by
  unfold isRunning
  cases c.current <;> simp

theorem lt_of_isAlive {c : Client} {process : Nat} (alive : c.isAlive process = true) :
    process < c.processes.length := by
  obtain ⟨bound, _⟩ := List.getElem?_eq_some_iff.mp ((isAlive_iff c process).mp alive)
  rwa [aliveness, List.length_map] at bound

theorem Moved.alive_cases {c : Client} {e : Event} {after : World} (moved : Moved c e after)
    {process : Nat} (alive : after.1.isAlive process = true) :
    c.isAlive process = true ∨ c.spawnsFor e = true ∧ after.1.current = some process := by
  rw [isAlive_iff] at alive ⊢
  cases moved with
  | spawned accepted unclosed added current =>
    rw [added] at alive
    rcases Nat.lt_or_ge process c.aliveness.length with old | new
    · rw [List.getElem?_append_left old] at alive
      exact .inl alive
    · have bound := (List.getElem?_eq_some_iff.mp alive).1
      rw [List.length_append, List.length_singleton, aliveness, List.length_map] at bound
      rw [aliveness, List.length_map] at new
      exact .inr ⟨accepted, current.trans (congrArg some (by omega))⟩
  | died dead gone refused unclosed removed current =>
    rw [removed, List.getElem?_set] at alive
    split at alive
    · split at alive <;> simp at alive
    · exact .inl alive
  | closing call refused closes closing => exact .inl (closing.alive ▸ alive)
  | still refused unclosed still => exact .inl (still.alive ▸ alive)

theorem Moved.current_cases {c : Client} {e : Event} {after : World} (moved : Moved c e after) :
    c.spawnsFor e = true ∨ after.1.current = c.current ∨ after.1.current = none := by
  cases moved with
  | spawned accepted unclosed added current => exact .inl accepted
  | died dead gone refused unclosed removed current => exact .inr (.inl current)
  | closing call refused closes closing =>
    rcases closing.ended with ⟨current, _⟩ | ⟨forgotten, _⟩
    · exact .inr (.inl current)
    · exact .inr (.inr forgotten)
  | still refused unclosed still => exact .inr (.inl still.current)

theorem Moved.forgotten_of_returned {c : Client} {e : Event} {after : World}
    (moved : Moved c e after) {call : Nat} {result : Json} (closes : c.closing? e = some call)
    (returned : .finish call (.value result) ∈ after.2) : after.1.current = none := by
  have listed := Effect.mem_returned_iff.mpr ⟨result, returned⟩
  cases moved with
  | spawned accepted unclosed added current => simp [unclosed] at closes
  | died dead gone refused unclosed removed current => simp [unclosed] at closes
  | still refused unclosed still => simp [unclosed] at closes
  | closing other refused same closing =>
    rcases closing.ended with ⟨_, silent⟩ | ⟨forgotten, _⟩
    · simp [silent] at listed
    · exact forgotten

/-- After the step at most one process lives, and none does if a call to shut down has returned. -/
structure OwnsOne (c : Client) (now : Int) (e : Event) : Prop where
  atMostOne : ∀ p q, (step now c e).1.isAlive p = true → (step now c e).1.isAlive q = true → p = q
  noneLeft : ∀ call result, c.closing? e = some call →
    .finish call (.value result) ∈ (step now c e).2 → ∀ p, (step now c e).1.isAlive p = false

/-- While its process lives, the client neither spawns another one nor forgets it. -/
def KeepsRunning (c : Client) (now : Int) (e : Event) : Prop :=
  c.isRunning = true → c.spawnsFor e = false ∧ (step now c e).1.current ≠ none

def OnlyCurrent (c : Client) : Prop := ∀ process, c.isAlive process = true → c.current = some process

theorem OnlyCurrent.atMostOne {c : Client} (only : OnlyCurrent c) (p q : Nat)
    (first : c.isAlive p = true) (second : c.isAlive q = true) : p = q :=
  Option.some.inj ((only p first).symm.trans (only q second))

theorem onlyCurrent_step {c : Client} {now : Int} {e : Event} (only : OnlyCurrent c)
    (keeps : KeepsRunning c now e) : OnlyCurrent (step now c e).1 := by
  intro process alive
  have moved := step_moved now c e
  rcases moved.alive_cases alive with before | ⟨_, current⟩
  · have current := only process before
    obtain ⟨refused, known⟩ := keeps ((isRunning_iff c).mpr ⟨process, current, before⟩)
    rcases moved.current_cases with accepted | same | forgotten
    · rw [refused] at accepted
      cases accepted
    · exact same.trans current
    · exact absurd forgotten known
  · exact current

theorem ownsOne_of_keepsRunning {c : Client} {now : Int} {e : Event} (only : OnlyCurrent c)
    (keeps : KeepsRunning c now e) : OwnsOne c now e := by
  have onlyAfter := onlyCurrent_step only keeps
  refine ⟨onlyAfter.atMostOne, ?_⟩
  intro call result closes returned process
  have forgotten := (step_moved now c e).forgotten_of_returned closes returned
  cases alive : (step now c e).1.isAlive process with
  | false => rfl
  | true => simp [onlyAfter process alive] at forgotten

theorem keepsRunning_of_ownsOne {c : Client} {now : Int} {e : Event}
    (owns : OwnsOne c now e) : KeepsRunning c now e := by
  intro running
  obtain ⟨process, current, alive⟩ := (isRunning_iff c).mp running
  have bound := lt_of_isAlive alive
  cases step_moved now c e with
  | spawned accepted unclosed added newCurrent =>
    -- The old process and the new one would be the same.
    have old : (step now c e).1.isAlive process = true := by
      rw [isAlive_iff] at alive ⊢
      rw [added, List.getElem?_append_left (by rwa [aliveness, List.length_map])]
      exact alive
    have new : (step now c e).1.isAlive c.processes.length = true := by
      rw [isAlive_iff, added]
      simp [aliveness]
    exact absurd (owns.atMostOne _ _ old new) (by omega)
  | died dead gone refused unclosed removed same =>
    exact ⟨refused, by simp [same, current]⟩
  | still refused unclosed still => exact ⟨refused, by simp [still.current, current]⟩
  | closing call refused closes closing =>
    refine ⟨refused, fun forgotten => ?_⟩
    rcases closing.ended with ⟨same, _⟩ | ⟨_, returned⟩
    · simp [same, current] at forgotten
    · obtain ⟨result, returned⟩ := Effect.mem_returned_iff.mp returned
      have dead := owns.noneLeft call result closes returned process
      rw [isAlive_congr closing.alive, alive] at dead
      cases dead

theorem owns_one_process_iff (setup : ServerSetup) (events : List (Int × Event)) :
    EachStep OwnsOne (ofSetup setup) events ↔ EachStep KeepsRunning (ofSetup setup) events := by
  have fromInvariant : ∀ c, OnlyCurrent c →
      (EachStep OwnsOne c events ↔ EachStep KeepsRunning c events) := by
    induction events with
    | nil => exact fun c _ => Iff.rfl
    | cons event more ih =>
      obtain ⟨now, e⟩ := event
      intro c only
      constructor
      · rintro ⟨owns, rest⟩
        have keeps := keepsRunning_of_ownsOne owns
        exact ⟨keeps, (ih _ (onlyCurrent_step only keeps)).mp rest⟩
      · rintro ⟨keeps, rest⟩
        exact ⟨ownsOne_of_keepsRunning only keeps, (ih _ (onlyCurrent_step only keeps)).mpr rest⟩
  exact fromInvariant _ fun process alive => by simp [isAlive, ofSetup] at alive

/-- A start whose handshake gets no answer leaves its process to live beside that of the next. -/
theorem unanswered_start_leaves_process :
    ¬ EachStep OwnsOne (ofSetup ⟨[['s']], ⟨['/'], []⟩, 1, 10000000, 100⟩)
      [(0, .begin 0 .start), (0, .spawned 0 none), (10000000, .expired 0),
        (10001000, .begin 1 .start), (10001000, .spawned 1 none)] := by
  rintro ⟨_, _, _, _, owns, _⟩
  exact absurd (owns.atMostOne 0 1 (by decide +kernel) (by decide +kernel)) (by decide)

end Client

end TemplateTypes
