import TemplateTypes.Proofs.Server.Ageing

namespace TemplateTypes

namespace Client

def readerFault? (c : Client) : Option Fault :=
  match c.reader.bind c.readerState? with
  | some (.crashed fault) => some fault
  | _ => none

/-- At the event a call to shut down comes upon the reader's crash, or it looks for a process that
    another call has forgotten; or the client has no process and is taken to be ready. -/
def isThwarted (c : Client) (call : Nat) (e : Event) : Bool :=
  match c.task? call, e with
  | some ⟨_, .readerEnd _, _⟩, _ => false
  | some ⟨_, .shutdownAnswer _, _⟩, _ | some ⟨_, .farewell, _⟩, _ | some _, .expired _ =>
    c.current.isNone || c.readerFault?.isSome
  | some _, _ => c.readerFault?.isSome
  | none, _ => c.readerFault?.isSome || c.current.isNone && c.initialized

/-- The event is one that the call waits for: it can go on, its time is over, or the process that
    it has had killed exits. -/
def prompts (c : Client) (call : Nat) (e : Event) : Bool :=
  match c.task? call, e with
  | some t, .resume n => n == call && c.isReady t
  | some t, .expired n => n == call && t.deadline.isSome
  | some ⟨_, .killedExit process, _⟩, .exited p => p == process && c.isAlive process
  | _, _ => false

def occurrences (p : Client → Event → Bool) (c : Client) : List (Int × Event) → Nat
  | [] => 0
  | (now, e) :: more => (if p c e then 1 else 0) + occurrences p (step now c e).1 more

/-- How often the call goes on with a write. -/
def turns (c : Client) (call : Nat) : List (Int × Event) → Nat :=
  occurrences (fun c e => c.prompts call e && c.isWriting (.call call)) c

/-- What the call writes waits for other writes, or for the process to make room. -/
def isHeldUp (c : Client) (call : Nat) : Bool :=
  c.isWriting (.call call) && !c.canWrite (.call call)

/-- How often a call to shut down has to be prompted at most before it ends. -/
def promptsLeft (c : Client) : Stage → Nat
  | .shutdownAnswer _ => 5
  | .farewell | .exit _ => 4
  | .killedExit process => if c.isAlive process then 3 else 2
  | .readerEnd _ => 1
  | _ => 0

/-- How often it has to go on with a write at most. A queued one may yet have to wait for room. -/
def turnsOf : Option (Writer × Json × Option Int × Bool) → Nat
  | some (_, _, _, queued) => if queued then 2 else 1
  | none => 0

def turnsLeft (c : Client) (t : CallTask) : Nat :=
  match t.stage with
  | .shutdownAnswer _ => 2 + turnsOf (c.callWrite? t.call)
  | .farewell => turnsOf (c.callWrite? t.call)
  | _ => 0

/-- What is known at its stage of a call that shuts down, after the effects so far. -/
inductive Fits (c : Client) (effects : List Effect) : CallTask → Prop
  | asking {call request : Nat} {payload : Json} {limit : Int} {queued : Bool}
      (write : c.callWrite? call = some (.call call, payload, some limit, queued)) :
      Fits c effects ⟨call, .shutdownAnswer request, none⟩
  | shutdownAnswer {call request : Nat} {deadline : Int} (idle : c.callWrite? call = none) :
      Fits c effects ⟨call, .shutdownAnswer request, some deadline⟩
  | farewell {call : Nat} (writes : (c.callWrite? call).isSome = true) :
      Fits c effects ⟨call, .farewell, none⟩
  | exit {call process : Nat} {deadline : Int} (idle : c.callWrite? call = none) :
      Fits c effects ⟨call, .exit process, some deadline⟩
  | killedExit {call process : Nat} (idle : c.callWrite? call = none) :
      process < c.processes.length → .kill process ∈ effects →
        Fits c effects ⟨call, .killedExit process, none⟩
  | readerEnd {call process : Nat} {p : ServerProcess} (idle : c.callWrite? call = none) :
      c.processes[process]? = some p → p.reader.isOver = true →
        Fits c effects ⟨call, .readerEnd process, none⟩

structure Winding (call : Nat) (effects : List Effect) (left lines : Nat) (c : Client) : Prop where
  task : ∃ t, c.task? call = some t ∧ Fits c effects t ∧ c.promptsLeft t.stage = left ∧
    c.turnsLeft t = lines

/-- What acts of a call that shuts down come to after the effects so far. -/
inductive Winds (call bound lines : Nat) (thwarted : Bool) (effects : List Effect) (after : World) :
    Prop
  | ends (outcome : Outcome) (absent : after.1.task? call = none)
      (wrote : after.2 = effects ++ [.finish call outcome])
      (cleared : outcome = .value .null ∧ after.1.current = none ∧ after.1.reader = none ∧
        after.1.initialized = false ↔ thwarted = false)
  | waits (left turns : Nat) (more : List Effect) (winding : Winding call after.2 left turns after.1)
      (nearer : left < bound ∧ turns ≤ lines) (wrote : after.2 = effects ++ more)
      (silent : more.filterMap Effect.finished? = [])

theorem turnsOf_le (write : Option (Writer × Json × Option Int × Bool)) : turnsOf write ≤ 2 := by
  unfold turnsOf
  split
  · split <;> decide
  · decide

section

variable {call bound lines : Nat}

theorem winds_forgetProcess (s : World) :
    Winds call bound lines false s.2 (forgetProcess call s).2 :=
  .ends (.value .null) (task?_withoutTask_self call _) rfl (iff_of_true ⟨rfl, rfl, rfl, rfl⟩ rfl)

theorem winds_leave_failed (fault : Fault) (s : World) :
    Winds call bound lines true s.2 (leave call (.failed fault) s).2 :=
  .ends (.failed fault) (task?_withoutTask_self call _) rfl
    (iff_of_false (fun returned => nomatch returned.1) (by decide))

theorem winds_stopReader (above : 1 < bound) {s : World} (idle : s.1.callWrite? call = none) :
    Winds call bound lines s.1.readerFault?.isSome s.2 (stopReader call s).2 := by
  unfold stopReader readerFault?
  rw [bind_apply, read_apply]
  dsimp only
  cases s.1.reader with
  | none => exact winds_forgetProcess s
  | some process =>
    dsimp only [Option.bind_some]
    cases known : s.1.readerState? process with
    | none => exact winds_forgetProcess s
    | some state =>
      cases state with
      | finished => exact winds_forgetProcess s
      | crashed fault => exact winds_leave_failed fault s
      | reading =>
        obtain ⟨p, there, _⟩ := Option.map_eq_some_iff.mp known
        obtain ⟨bounds, _⟩ := List.getElem?_eq_some_iff.mp there
        let freed : World := (unwrite (.reader process) s.1, s.2)
        have ended : (endReader process .finished freed).2.1.processes[process]? =
            some { p with reader := .finished } := by
          unfold endReader
          rw [update_apply]
          dsimp only [freed, unwrite]
          rw [there]
          exact List.getElem?_set_self bounds
        have keeps := endReader_keeps process .finished freed
        have idle : (endReader process .finished freed).2.1.callWrite? call = none :=
          (callWrite?_congr ((callWrites_congr keeps.writes).trans
            (callWrites_unwrite_reader process s.1)) call).trans idle
        refine .waits 1 0 [] ⟨_, task?_wait call (.readerEnd process) none _,
          .readerEnd idle ended rfl, rfl, rfl⟩ ⟨above, Nat.zero_le _⟩ ?_ rfl
        exact keeps.effects.trans (List.append_nil _).symm

theorem winds_kill (above : 3 < bound) {s : World} (idle : s.1.callWrite? call = none) :
    Winds call bound lines (s.1.current.isNone || s.1.readerFault?.isSome) s.2 (kill call s).2 := by
  unfold kill
  rw [bind_apply, read_apply]
  dsimp only
  cases s.1.current with
  | none => exact winds_leave_failed _ s
  | some process =>
    dsimp only
    split
    · rename_i alive
      have told : Effect.kill process ∈ s.2 ++ [.kill process] :=
        List.mem_append_right _ (List.mem_singleton_self _)
      exact .waits 3 0 [.kill process] ⟨_, task?_wait call (.killedExit process) none s,
        .killedExit idle (lt_of_isAlive alive) told, if_pos alive, rfl⟩ ⟨above, Nat.zero_le _⟩ rfl rfl
    · exact winds_stopReader (by omega) idle

theorem winds_untold (above : 3 < bound) {s : World} (idle : s.1.callWrite? call = none)
    (e : WriteError) (unknown : e = .unknownProcess → s.1.current = none) :
    Winds call bound lines (s.1.current.isNone || s.1.readerFault?.isSome) s.2
      (untold call e s).2 := by
  cases e with
  | unknownProcess =>
    rw [unknown rfl]
    exact winds_leave_failed _ s
  | _ => exact winds_kill above idle

theorem winds_farewellSent (now : Int) (above : 4 < bound) {s : World}
    (idle : s.1.callWrite? call = none) (failure : Option WriteError)
    (unknown : failure = some .unknownProcess → s.1.current = none) :
    Winds call bound lines (s.1.current.isNone || s.1.readerFault?.isSome) s.2
      (farewellSent now call failure s).2 := by
  cases failure with
  | some e => exact winds_untold (by omega) idle e fun same => unknown (congrArg some same)
  | none =>
    unfold farewellSent
    dsimp only
    rw [bind_apply, read_apply]
    dsimp only
    cases s.1.current with
    | none => exact winds_leave_failed _ s
    | some process =>
      exact .waits 4 0 [] ⟨_, task?_wait call (.exit process) (some (now + patience)) s, .exit idle,
        rfl, rfl⟩ ⟨above, Nat.zero_le _⟩ (List.append_nil _).symm rfl

theorem winds_farewell (now : Int) (above : 4 < bound) (two : 2 ≤ lines) {s : World}
    (idle : s.1.callWrite? call = none) (outcome : Except Fault Json) :
    Winds call bound lines (s.1.current.isNone || s.1.readerFault?.isSome) s.2
      (farewell now call outcome s).2 := by
  have kills : Winds call bound lines (s.1.current.isNone || s.1.readerFault?.isSome) s.2
      (kill call s).2 := winds_kill (by omega) idle
  cases outcome with
  | error fault => exact kills
  | ok result =>
    let payload := Message.notification "exit".toList (.obj [])
    obtain ⟨sent, after, sends, sent_eq⟩ := send_cases (.call call) payload none s
    unfold farewell
    dsimp only
    rw [sendThen_apply sent_eq]
    cases sent with
    | failed e => cases sends <;> exact kills
    | done =>
      cases sends with
      | done process current free takes =>
        dsimp only [Sent.elim]
        unfold farewellSent
        dsimp only
        rw [bind_apply, read_apply]
        dsimp only
        rw [current]
        exact .waits 4 0 [_] ⟨_, task?_wait call (.exit process) (some (now + patience)) _,
          .exit idle, rfl, rfl⟩ ⟨above, Nat.zero_le _⟩ rfl rfl
    | waits =>
      obtain ⟨writes, queued, more, rfl, own, hands, _⟩ := sends.waiting idle
      have below := Nat.le_trans (turnsOf_le ((withWrites writes s.1).callWrite? call)) two
      refine .waits 4 _ more ⟨_, task?_wait call .farewell none _, .farewell ?_, rfl, rfl⟩
        ⟨above, below⟩ rfl hands.silent
      change ((withWrites writes s.1).callWrite? call).isSome = true
      rw [own]
      rfl

end

theorem Aged.isAlive {c d : Client} (aged : Aged c.processes d.processes) {process : Nat}
    (known : process < c.processes.length) (alive : d.isAlive process = true) :
    c.isAlive process = true := by
  have there := List.getElem?_eq_getElem known
  obtain ⟨q, later, becomes⟩ := aged process _ there
  unfold Client.isAlive at alive ⊢
  rw [later] at alive
  rw [there]
  exact becomes.alive alive

theorem Fits.later {c d : Client} {effects more : List Effect} {t : CallTask}
    (fits : Fits c effects t) (aged : Aged c.processes d.processes) (known : effects ⊆ more)
    (own : d.callWrite? t.call = c.callWrite? t.call) :
    Fits d more t ∧ d.promptsLeft t.stage ≤ c.promptsLeft t.stage := by
  cases fits with
  | asking write => exact ⟨.asking (own.trans write), Nat.le_refl _⟩
  | shutdownAnswer idle => exact ⟨.shutdownAnswer (own.trans idle), Nat.le_refl _⟩
  | farewell writes => exact ⟨.farewell (by rw [own, writes]), Nat.le_refl _⟩
  | exit idle => exact ⟨.exit (own.trans idle), Nat.le_refl _⟩
  | @killedExit call process idle there told =>
    obtain ⟨q, later, _⟩ := aged process _ (List.getElem?_eq_getElem there)
    obtain ⟨bound, _⟩ := List.getElem?_eq_some_iff.mp later
    refine ⟨.killedExit (own.trans idle) bound (known told), ?_⟩
    dsimp only [promptsLeft]
    by_cases alive : d.isAlive process = true
    · simp [alive, aged.isAlive there alive]
    · rw [if_neg alive]
      split <;> omega
  | readerEnd idle there stopped =>
    obtain ⟨q, later, becomes⟩ := aged _ _ there
    exact ⟨.readerEnd (own.trans idle) later (becomes.stopped stopped), Nat.le_refl _⟩

section

variable {c : Client} {call : Nat} {effects : List Effect} {t : CallTask} {e : Event}

theorem Fits.turn (now : Int) (booked : Booked c) (there : c.task? t.call = some t)
    (fits : Fits c effects t) (writing : c.isWriting (.call t.call) = true)
    (turn : c.canWrite (.call t.call) = true) :
    ∃ lines < c.turnsLeft t, Winds t.call (c.promptsLeft t.stage + 1) lines
      (c.isThwarted t.call (.resume t.call)) [] (goOnWriting now t (c, [])).2 := by
  obtain ⟨sent, after, turn, resumed⟩ := turn_cases booked.lined turn
  rw [goOnWriting_apply resumed]
  unfold isThwarted
  rw [there]
  cases fits with
  | @asking call request payload limit queued write =>
    have left : c.turnsLeft ⟨call, .shutdownAnswer request, none⟩ =
        2 + turnsOf (some (.call call, payload, some limit, queued)) :=
      congrArg (2 + turnsOf ·) write
    have above : 2 < 2 + turnsOf (some (.call call, payload, some limit, queued)) := by
      cases queued <;> simp [turnsOf]
    rw [left]
    cases turn with
    | done written limits queued writes new before idle hands =>
      have limited : c.limit? (.call call) = some limit := by
        rw [limit?_eq_bind, write]
        rfl
      rw [limited]
      have set := (task?_setDeadline call (some (now + limit)) c).trans (congrArg _ there)
      exact ⟨2, above, .waits 5 2 new ⟨_, set, .shutdownAnswer idle, rfl,
        congrArg (2 + turnsOf ·) idle⟩ ⟨Nat.le_refl _, Nat.le_refl _⟩ rfl hands.silent⟩
    | failed e writes idle unknown severed =>
      exact ⟨2, above, winds_untold (s := (forget request (withWrites writes c, [])).2)
        (show 3 < 6 by decide) idle e unknown⟩
    | waits written limits writes new before later hands =>
      cases before.symm.trans write
      exact ⟨3, by simp [turnsOf], .waits 5 3 new ⟨_, there, .asking later, rfl,
        congrArg (2 + turnsOf ·) later⟩ ⟨Nat.le_refl _, Nat.le_refl _⟩ rfl hands.silent⟩
  | @farewell call writes =>
    obtain ⟨write, own⟩ := Option.isSome_iff_exists.mp writes
    have left : c.turnsLeft ⟨call, .farewell, none⟩ = turnsOf (some write) := congrArg turnsOf own
    have above : 0 < turnsOf (some write) := by
      obtain ⟨_, _, _, queued⟩ := write
      cases queued <;> simp [turnsOf]
    rw [left]
    cases turn with
    | done written limits queued writes new before idle hands =>
      cases current : c.current with
      | none =>
        obtain rfl : new = [] := by
          unfold Hands at hands
          cases queued with
          | false => exact hands
          | true =>
            obtain ⟨process, known, _⟩ := hands
            cases current.symm.trans known
        have unknown : (withWrites writes c).current = none := current
        refine ⟨0, above, ?_⟩
        have winds : ∀ {lines}, Winds call 5 lines _ _ _ := fun {_} =>
          winds_farewellSent (s := (withWrites writes c, [])) now (by decide) idle none (by simp)
        rw [unknown] at winds
        exact winds
      | some process =>
        have known : (withWrites writes c).current = some process := current
        unfold Client.wrote farewellSent
        dsimp only [Sent.elim]
        rw [bind_apply, read_apply]
        dsimp only
        rw [known]
        exact ⟨0, above, .waits 4 0 new ⟨_, task?_wait call (.exit process) (some (now + patience)) _,
          .exit idle, rfl, rfl⟩ ⟨Nat.le_refl _, Nat.le_refl _⟩ rfl hands.silent⟩
    | failed e writes idle unknown severed =>
      exact ⟨0, above, winds_farewellSent (s := (withWrites writes c, [])) now
        (show 4 < 5 by decide) idle (some e) fun same => unknown (Option.some.inj same)⟩
    | waits payload limit writes new before later hands =>
      cases before.symm.trans own
      exact ⟨1, by simp [turnsOf], .waits 4 1 new ⟨_, there, .farewell (later ▸ rfl), rfl,
        congrArg turnsOf later⟩ ⟨Nat.le_refl _, Nat.le_refl _⟩ rfl hands.silent⟩
  | shutdownAnswer idle | exit idle | killedExit idle | readerEnd idle =>
    rw [← isSome_callWrite?, idle] at writing
    cases writing

/-- What an event about the call itself comes to. -/
inductive Prompted (c : Client) (call : Nat) (t : CallTask) (e : Event) (after : World) : Prop
  | unprompted (unprompted : c.prompts call e = false) (same : after = (c, []))
  | prompted (prompted : c.prompts call e = true) (idle : c.isWriting (.call call) = false)
      (winds : Winds call (c.promptsLeft t.stage) (c.turnsLeft t) (c.isThwarted call e) [] after)
  | turns (prompted : c.prompts call e = true) (writing : c.isWriting (.call call) = true)
      (lines : Nat) (fewer : lines < c.turnsLeft t)
      (winds : Winds call (c.promptsLeft t.stage + 1) lines (c.isThwarted call e) [] after)

theorem Fits.goesOn (now : Int) (there : c.task? t.call = some t) (fits : Fits c effects t)
    (ready : c.isReady t = true) (writing : c.isWriting (.call t.call) = false) :
    Winds t.call (c.promptsLeft t.stage) (c.turnsLeft t) (c.isThwarted t.call (.resume t.call)) []
      (resume now t (c, [])).2 := by
  unfold isThwarted
  rw [there]
  cases fits with
  | asking write =>
    rw [← isSome_callWrite?, write] at writing
    cases writing
  | @shutdownAnswer call request deadline idle =>
    have settled : (c.outcome? request).isSome = true := by
      unfold isReady at ready
      rw [if_neg (by simp [writing])] at ready
      exact ready
    obtain ⟨outcome, settled⟩ := Option.isSome_iff_exists.mp settled
    unfold resume takeOutcome
    dsimp only
    rw [bind_apply, read_apply]
    dsimp only
    rw [settled]
    exact winds_farewell now (show 4 < 5 by decide) (Nat.le_add_right _ _)
      (s := (forget request (c, [])).2) idle outcome
  | farewell writes =>
    rw [isSome_callWrite?, writing] at writes
    cases writes
  | exit idle => exact winds_stopReader (s := (c, [])) (show 1 < 4 by decide) idle
  | @killedExit call process idle known told =>
    have dead : c.isAlive process = false := by
      unfold isReady at ready
      rw [if_neg (by simp [writing])] at ready
      simpa using ready
    have left : c.promptsLeft (.killedExit process) = 2 := by simp [promptsLeft, dead]
    rw [left]
    exact winds_stopReader (s := (c, [])) (by decide) idle
  | readerEnd => exact winds_forgetProcess (c, [])

/-- Its time runs out for what it waits for, but not while it writes. -/
theorem Fits.expires (there : c.task? t.call = some t) (fits : Fits c effects t) :
    Prompted c t.call t (.expired t.call)
      ((if c.isWriting (.call t.call) = true then pure () else expire t) (c, [])).2 := by
  have prompts : c.prompts t.call (.expired t.call) = t.deadline.isSome := by
    unfold Client.prompts
    rw [there]
    simp
  cases writing : c.isWriting (.call t.call) with
  | true =>
    refine .unprompted (prompts.trans ?_) rfl
    cases fits with
    | asking write => rfl
    | farewell writes => rfl
    | shutdownAnswer idle | exit idle | killedExit idle | readerEnd idle =>
      rw [← isSome_callWrite?, idle] at writing
      cases writing
  | false =>
    simp only [Bool.false_eq_true, ↓reduceIte]
    cases fits with
    | asking write =>
      rw [← isSome_callWrite?, write] at writing
      cases writing
    | farewell writes =>
      rw [isSome_callWrite?, writing] at writes
      cases writes
    | @shutdownAnswer call request deadline idle =>
      refine .prompted prompts writing ?_
      unfold isThwarted
      rw [there]
      exact winds_kill (s := (forget request (c, [])).2) (show 3 < 5 by decide) idle
    | exit idle =>
      refine .prompted prompts writing ?_
      unfold isThwarted
      rw [there]
      exact winds_kill (s := (c, [])) (show 3 < 4 by decide) idle
    | killedExit idle => exact .unprompted prompts rfl
    | readerEnd idle => exact .unprompted prompts rfl

theorem Fits.own (now : Int) (booked : Booked c) (there : c.task? call = some t)
    (fits : Fits c effects t) (about : e.call? = some call) (later : e.begun? = none)
    (kept : e ≠ .cancelled call) : Prompted c call t e (step now c e) := by
  have acts : ∀ f : CallTask → Act Unit, (withTask call f (c, [])).2 = (f t (c, [])).2 :=
    fun f => congrArg Prod.snd (withTask_of_some (s := (c, [])) there)
  obtain rfl := task?_call there
  cases e with
  | begin number what => cases later
  | spawned number failure =>
    obtain rfl := Option.some.inj about
    refine .unprompted ?_ ((acts _).trans ?_)
    · unfold prompts
      rw [there]
    · cases fits <;> rfl
  | document number content =>
    obtain rfl := Option.some.inj about
    refine .unprompted ?_ ((acts _).trans ?_)
    · unfold prompts
      rw [there]
    · cases fits <;> rfl
  | resume number =>
    obtain rfl := Option.some.inj about
    have prompts : c.prompts t.call (.resume t.call) = c.isReady t := by
      unfold Client.prompts
      rw [there]
      simp
    have resumed : step now c (.resume t.call) = ((if c.isReady t = true then
        (if c.isWriting (.call t.call) = true then goOnWriting now t else resume now t)
        else pure ()) (c, [])).2 := acts _
    rw [resumed]
    cases ready : c.isReady t with
    | false => exact .unprompted (prompts.trans ready) rfl
    | true =>
      rw [if_pos rfl]
      cases writing : c.isWriting (.call t.call) with
      | true =>
        have turn : c.canWrite (.call t.call) = true := by
          unfold isReady at ready
          rwa [if_pos writing] at ready
        obtain ⟨lines, fewer, winds⟩ := fits.turn now booked there writing turn
        exact .turns (prompts.trans ready) writing lines fewer winds
      | false => exact .prompted (prompts.trans ready) writing (fits.goesOn now there ready writing)
  | expired number =>
    obtain rfl := Option.some.inj about
    have expired : step now c (.expired t.call) =
        ((if c.isWriting (.call t.call) = true then pure () else expire t) (c, [])).2 := acts _
    rw [expired]
    exact fits.expires there
  | cancelled number =>
    obtain rfl := Option.some.inj about
    exact absurd rfl kept
  | _ => cases about

/-- While the call shuts down there is an event that prompts it unless its write is held up, and
    processes are waited for only when they have been killed. -/
theorem Fits.prompted (there : c.task? call = some t) (fits : Fits c effects t) :
    0 < c.promptsLeft t.stage ∧ (c.isHeldUp call = true ∨
      ∃ e, c.prompts call e = true ∧ ∀ process, e = .exited process → .kill process ∈ effects) := by
  obtain rfl := task?_call there
  have writes : c.isWriting (.call t.call) = true → c.isHeldUp t.call = true ∨
      ∃ e, c.prompts t.call e = true ∧ ∀ process, e = .exited process → .kill process ∈ effects := by
    intro writing
    cases turn : c.canWrite (.call t.call) with
    | false => exact .inl (by simp [isHeldUp, writing, turn])
    | true =>
      refine .inr ⟨.resume t.call, ?_, fun _ no => by cases no⟩
      unfold prompts
      rw [there]
      simp [isReady, writing, turn]
  have free : c.callWrite? t.call = none → c.isWriting (.call t.call) = false :=
    callWrite?_eq_none_iff.mp
  cases fits with
  | asking write =>
    exact ⟨by simp [promptsLeft], writes (by rw [← isSome_callWrite?, write]; rfl)⟩
  | farewell own => exact ⟨by simp [promptsLeft], writes (isSome_callWrite? c _ ▸ own)⟩
  | @shutdownAnswer call =>
    refine ⟨by simp [promptsLeft], .inr ⟨.expired call, ?_, fun _ no => by cases no⟩⟩
    simp [prompts, there]
  | @exit call =>
    refine ⟨by simp [promptsLeft], .inr ⟨.expired call, ?_, fun _ no => by cases no⟩⟩
    simp [prompts, there]
  | @killedExit call process idle known told =>
    cases alive : c.isAlive process with
    | true =>
      refine ⟨by simp [promptsLeft, alive], .inr ⟨.exited process, ?_, ?_⟩⟩
      · simp [prompts, there, alive]
      · rintro _ ⟨⟩
        exact told
    | false =>
      refine ⟨by simp [promptsLeft, alive], .inr ⟨.resume call, ?_, fun _ no => by cases no⟩⟩
      simp [prompts, there, isReady, free idle, alive]
  | @readerEnd call process p idle known stopped =>
    have ready : c.isReady ⟨call, .readerEnd process, none⟩ = true := by
      obtain ⟨alive, unread, ended, reader, nesting⟩ := p
      unfold isReady readerState?
      rw [if_neg (by simp [free idle])]
      dsimp only
      rw [known]
      cases reader <;> first | rfl | cases stopped
    refine ⟨by simp [promptsLeft], .inr ⟨.resume call, ?_, fun _ no => by cases no⟩⟩
    simp [prompts, there, ready]

theorem Fits.elsewhere (now : Int) (booked : Booked c) (there : c.task? call = some t)
    (fits : Fits c effects t) (about : e.call? = none) :
    (step now c e).1.promptsLeft t.stage +
        (if c.prompts call e && !c.isWriting (.call call) then 1 else 0) ≤ c.promptsLeft t.stage ∧
      (c.prompts call e && c.isWriting (.call call)) = false := by
  have own : (step now c e).1.callWrite? t.call = c.callWrite? t.call :=
    callWrite?_congr (heard_step now booked.lined about).calls t.call
  have later := (fits.later (ages_step now c e).aged (List.Subset.refl effects) own).2
  cases prompted : c.prompts call e with
  | false => exact ⟨later, rfl⟩
  | true =>
    unfold prompts at prompted
    rw [there] at prompted
    cases e with
    | exited p =>
      cases fits with
      | @killedExit number process idle known told =>
        obtain rfl : number = call := task?_call there
        rw [Bool.and_eq_true, beq_iff_eq] at prompted
        obtain ⟨rfl, alive⟩ := prompted
        have dead : (step now c (.exited p)).1.isAlive p = false := by
          have aliveness := aliveness_exited c p
          rw [Bool.eq_false_iff, Ne, isAlive_iff]
          change (adjust p (fun p => { p with alive := false }) c).aliveness[p]? ≠ some true
          rw [aliveness, List.getElem?_set]
          simp
        have silent := callWrite?_eq_none_iff.mp idle
        simp [promptsLeft, alive, dead, silent]
      | _ => cases prompted
    | output process bytes => cases fits <;> cases prompted
    | outputEnded process => cases fits <;> cases prompted
    | input process state => cases fits <;> cases prompted
    | readerResumed process => cases fits <;> cases prompted
    | _ => cases about

theorem Winding.since {left lines : Nat} (winding : Winding call effects left lines c)
    (before : List Effect) : Winding call (before ++ effects) left lines c := by
  obtain ⟨t, there, fits, same⟩ := winding.task
  exact ⟨t, there, (fits.later (.refl _) (List.subset_append_right before effects) rfl).1, same⟩

end

section

variable {c : Client} {call left lines : Nat} {effects : List Effect}

section

variable {earlier later : List (Int × Event)} {now : Int} {e : Event} {outcome : Outcome}

end

end

section

variable {c : Client} {call : Nat} {begins : Int} {since : List (Int × Event)}

end

-- The server reads no more, and no time limit holds for the request to shut down that waits for it.
example :
    let setup : ServerSetup := ⟨[['s']], ⟨['/'], []⟩, 1, 10000000, 100⟩
    let answer : Bytes := Frame.encode (.object [("id", .int 1), ("result", .null)])
    let events : List (Int × Event) :=
      [(0, .begin 0 .start), (0, .spawned 0 none), (1, .output 0 answer), (1, .resume 0),
        (2, .input 0 .full), (2, .begin 1 .shutDown), (9000000, .expired 1), (9000000, .resume 1)]
    (run (ofSetup setup) events).1.isHeldUp 1 = true := by
  decide +kernel

end Client

end TemplateTypes
