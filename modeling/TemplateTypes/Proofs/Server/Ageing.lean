import TemplateTypes.Proofs.Server.Tending

namespace TemplateTypes

open Text

namespace ReaderState

def isCrashed : ReaderState → Bool
  | .crashed _ => true
  | _ => false

end ReaderState

def Event.fills : Event → Bool
  | .input _ .full => true
  | _ => false

namespace Client

/-- The processes and what the client holds of them are as they were. -/
structure Aside (before after : World) : Prop where
  processes : after.1.processes = before.1.processes
  current : after.1.current = before.1.current
  reader : after.1.reader = before.1.reader

/-- The reader waited for is that of the current process. -/
def Linked (c : Client) : Prop := c.reader = c.current

/-- The dead are dead still, readers that had ended have ended, and no one is found again. -/
structure Becomes (p q : ServerProcess) : Prop where
  alive : q.alive = true → p.alive = true
  stopped : p.reader.isOver = true → q.reader.isOver = true
  lost : p.input.isLost = true → q.input.isLost = true

def Aged (before after : List ServerProcess) : Prop :=
  ∀ (process : Nat) (p : ServerProcess), before[process]? = some p →
    ∃ q, after[process]? = some q ∧ Becomes p q

structure Ages (before after : World) : Prop where
  linked : Linked before.1 → Linked after.1
  aged : Aged before.1.processes after.1.processes

/-- The reader waited for has not crashed. -/
def Sound (c : Client) : Prop :=
  ∀ (process : Nat) (p : ServerProcess), c.reader = some process →
    c.processes[process]? = some p → p.reader.isCrashed = false

structure Spares (before after : World) : Prop extends Ages before after where
  sound : Sound before.1 → Sound after.1

theorem Becomes.refl (p : ServerProcess) : Becomes p p := ⟨id, id, id⟩

theorem Becomes.trans {p q r : ServerProcess} (early : Becomes p q) (late : Becomes q r) :
    Becomes p r :=
  ⟨fun lives => early.alive (late.alive lives), fun ended => late.stopped (early.stopped ended),
    fun gone => late.lost (early.lost gone)⟩

theorem Aged.refl (processes : List ServerProcess) : Aged processes processes :=
  fun _ p there => ⟨p, there, .refl p⟩

theorem Aged.trans {first second third : List ServerProcess} (early : Aged first second)
    (late : Aged second third) : Aged first third := by
  intro process p there
  obtain ⟨q, between, first⟩ := early process p there
  obtain ⟨r, last, second⟩ := late process q between
  exact ⟨r, last, first.trans second⟩

theorem Aged.length_le {before after : List ServerProcess} (aged : Aged before after) :
    before.length ≤ after.length := by
  refine Nat.le_of_not_lt fun known => ?_
  obtain ⟨q, there, _⟩ := aged after.length _ (List.getElem?_eq_getElem known)
  rw [List.getElem?_eq_none (Nat.le_refl _)] at there
  cases there

theorem Aged.append (processes more : List ServerProcess) : Aged processes (processes ++ more) := by
  intro process p there
  obtain ⟨bound, _⟩ := List.getElem?_eq_some_iff.mp there
  exact ⟨p, (List.getElem?_append_left bound).trans there, .refl p⟩

theorem Aged.set {processes : List ServerProcess} {process : Nat} {p q : ServerProcess}
    (there : processes[process]? = some p) (becomes : Becomes p q) :
    Aged processes (processes.set process q) := by
  intro other r known
  by_cases same : process = other
  · subst same
    obtain rfl := Option.some.inj (there.symm.trans known)
    obtain ⟨bound, _⟩ := List.getElem?_eq_some_iff.mp there
    exact ⟨q, List.getElem?_set_self bound, becomes⟩
  · exact ⟨r, (List.getElem?_set_ne same).trans known, .refl r⟩

theorem Sound.congr {c d : Client} (sound : Sound c) (reader : d.reader = c.reader)
    (processes : d.processes = c.processes) : Sound d := by
  unfold Sound
  rw [reader, processes]
  exact sound

theorem Sound.set {c d : Client} {process : Nat} {p : ServerProcess} (sound : Sound c)
    (reader : d.reader = c.reader) (processes : d.processes = c.processes.set process p)
    (uncrashed : p.reader.isCrashed = false) : Sound d := by
  intro other q waited there
  rw [reader] at waited
  rw [processes, List.getElem?_set] at there
  split at there
  · split at there
    · obtain rfl := Option.some.inj there
      exact uncrashed
    · cases there
  · exact sound other q waited there

instance : Std.Refl Aside := ⟨fun _ => ⟨rfl, rfl, rfl⟩⟩

instance : Std.Refl Ages := ⟨fun s => ⟨id, .refl s.1.processes⟩⟩

instance : IsTrans World Ages where
  trans _ _ _ first second :=
    ⟨fun linked => second.linked (first.linked linked), first.aged.trans second.aged⟩

instance : Std.Refl Spares := ⟨fun s => ⟨refl_of Ages s, id⟩⟩

theorem Ages.of_aged {before after : World} (current : after.1.current = before.1.current)
    (reader : after.1.reader = before.1.reader)
    (aged : Aged before.1.processes after.1.processes) : Ages before after :=
  ⟨fun linked => reader.trans (linked.trans current.symm), aged⟩

theorem Aside.ages {before after : World} (aside : Aside before after) : Ages before after := by
  apply Ages.of_aged aside.current aside.reader
  rw [aside.processes]
  exact .refl _

theorem spares_adjust {process : Nat} {f : ServerProcess → ServerProcess}
    (becomes : ∀ p, Becomes p (f p)) (reader : ∀ p, (f p).reader = p.reader) :
    Ensures Spares (update (adjust process f)) := by
  refine ensures_update fun c effects => ?_
  unfold adjust
  cases there : c.processes[process]? with
  | none => exact refl_of Spares _
  | some p =>
    refine ⟨.of_aged rfl rfl (.set there (becomes p)), fun sound other q waited known => ?_⟩
    by_cases same : process = other
    · subst same
      obtain rfl := Option.some.inj ((getElem?_setProcess there).symm.trans known)
      rw [reader]
      exact sound process p waited there
    · exact sound other q waited ((List.getElem?_set_ne same).symm.trans known)

theorem Tended.spares {closes : Bool} {flowing : Prop} {before after : World}
    (tended : Tended closes flowing before after) : Spares before after := by
  cases tended with
  | apart apart =>
    have aside : Aside before after := ⟨apart.processes, apart.current, apart.reader⟩
    exact ⟨aside.ages, fun sound => sound.congr apart.reader apart.processes⟩
  | spawned nesting processes current reader initialized settled _ =>
    refine ⟨⟨fun _ => reader.trans current.symm, ?_⟩, fun _ process p waited there => ?_⟩
    · rw [processes]
      exact .append _ _
    · obtain rfl := Option.some.inj (reader.symm.trans waited)
      rw [processes, List.getElem?_concat_length] at there
      obtain rfl := Option.some.inj there
      rfl
  | ready processes current reader known ready settled _ =>
    have aside : Aside before after := ⟨processes, current, reader⟩
    exact ⟨aside.ages, fun sound => sound.congr reader processes⟩
  | stopped closing process p waited there reading processes current reader unready _ =>
    refine ⟨.of_aged current reader ?_, fun sound => sound.set reader processes rfl⟩
    rw [processes]
    exact .set there ⟨id, fun _ => rfl, id⟩
  | forgot closing processes current reader unready settled _ =>
    refine ⟨⟨fun _ => reader.trans current.symm, ?_⟩, fun _ process p waited => ?_⟩
    · rw [processes]
      exact .refl _
    · cases reader.symm.trans waited

theorem aside_handle (process : Nat) (payload : Json) : Ensures Aside (handle process payload) := by
  intro s
  rcases handle_cases process payload s with ⟨⟨state, stopped⟩, _⟩ | ⟨writes, new, _, dealt⟩
  · rw [stopped]
    exact refl_of Aside s
  · rw [dealt]
    exact ⟨rfl, rfl, rfl⟩

theorem ages_endReader (process : Nat) {state : ReaderState} (ended : state.isOver = true) :
    Ensures Ages (endReader process state) := by
  intro s
  unfold endReader
  rw [update_apply]
  dsimp only
  split
  · rename_i p there
    exact .of_aged rfl rfl (.set there ⟨id, fun _ => ended, id⟩)
  · exact .of_aged rfl rfl (.refl _)

theorem ages_readMessages (process fuel : Nat) : Ensures Ages (readMessages process fuel) :=
  ensures_readMessages_of (fun _ => ages_endReader process)
    (fun _ _ _ there _ => .of_aged rfl rfl (.set there ⟨id, id, id⟩))
    (fun payload => (aside_handle process payload).mono fun _ _ => Aside.ages) fuel

theorem ages_readOutput (process : Nat) : Ensures Ages (readOutput process) := by
  refine ensures_look fun c => ?_
  split
  · exact ages_readMessages process _
  · exact ensures_pure _

theorem ages_goOnReading (process : Nat) (sent : Sent) :
    Ensures Ages (goOnReading process sent) := by
  cases sent with
  | done => exact ages_readOutput process
  | failed e => exact ages_endReader process (isOver_replyEnd e)
  | waits => exact ensures_pure _

theorem Resumes.unknown {writer : Writer} {s after : World}
    (resumes : Resumes writer s (.failed .unknownProcess) after) : s.1.current = none := by
  cases resumes with
  | begun w more writes own progress puts =>
    cases puts with
    | unknown current => exact current

theorem Resumes.aside {writer : Writer} {s after : World} {sent : Sent}
    (resumes : Resumes writer s sent after) : Aside s after := by
  rcases resumes.advances with ⟨_, _, rfl⟩ | ⟨w, more, v, new, advances⟩
  · exact ⟨rfl, rfl, rfl⟩
  · rw [advances.result]
    exact ⟨rfl, rfl, rfl⟩

theorem isLost_next (input state : Input) (lost : input.isLost = true) :
    (input.next state).isLost = true := by
  cases input <;> first | rfl | cases lost

theorem spares_exited (now : Int) (c : Client) (process : Nat) :
    Spares (c, []) (step now c (.exited process)) := by
  let died (p : ServerProcess) : ServerProcess := { p with alive := false }
  exact spares_adjust (f := died) (fun _ => ⟨nofun, id, id⟩) (fun _ => rfl) (c, [])

theorem spares_input (now : Int) (c : Client) (process : Nat) (state : Input) :
    Spares (c, []) (step now c (.input process state)) := by
  let noticed (p : ServerProcess) : ServerProcess := { p with input := p.input.next state }
  have spares : Spares (c, []) (adjust process noticed c, []) :=
    spares_adjust (f := noticed) (fun p => ⟨id, id, isLost_next p.input state⟩) (fun _ => rfl) (c, [])
  exact ⟨⟨spares.linked, spares.aged⟩, spares.sound⟩

theorem ages_readerResumed (now : Int) (c : Client) (process : Nat) :
    Ages (c, []) (step now c (.readerResumed process)) := by
  obtain ⟨sent, after, resumes, resumed⟩ := resumeWrite_cases (.reader process) (c, [])
  rw [step_readerResumed now resumed]
  exact trans_of Ages resumes.aside.ages (ages_goOnReading process sent after)

theorem ages_step (now : Int) (c : Client) (e : Event) : Ages (c, []) (step now c e) := by
  cases about : e.call? with
  | some call => exact (tended_step now about).spares.toAges
  | none =>
    have adjusted : ∀ {process f}, (∀ p, Becomes p (f p)) → (∀ p, (f p).reader = p.reader) →
        Ensures Ages (update (adjust process f) >>= fun _ => readOutput process) :=
      fun becomes reader => ((spares_adjust becomes reader).mono fun _ _ between =>
        between.toAges).bind fun _ => ages_readOutput _
    cases e with
    | output process bytes =>
      let arrived (p : ServerProcess) : ServerProcess := { p with unread := p.unread ++ bytes }
      exact adjusted (f := arrived) (fun _ => ⟨id, id, id⟩) (fun _ => rfl) (c, [])
    | outputEnded process =>
      let ended (p : ServerProcess) : ServerProcess := { p with outputEnded := true }
      exact adjusted (f := ended) (fun _ => ⟨id, id, id⟩) (fun _ => rfl) (c, [])
    | exited process => exact (spares_exited now c process).toAges
    | input process state => exact (spares_input now c process state).toAges
    | readerResumed process => exact ages_readerResumed now c process
    | _ => cases about

theorem getElem?_adjust (process : Nat) (f : ServerProcess → ServerProcess) (c : Client) :
    (adjust process f c).processes[process]? = (c.processes[process]?).map f := by
  unfold adjust
  cases there : c.processes[process]? with
  | none => exact there
  | some p => exact getElem?_setProcess there

/-- Writes take time only if some did. -/
def Flowing (before after : World) : Prop := Flows before.1 → Flows after.1

instance : Std.Refl Flowing := ⟨fun _ => id⟩

instance : IsTrans World Flowing := ⟨fun _ _ _ first second flows => second (first flows)⟩

theorem flowing_setProcess {process : Nat} {p q : ServerProcess} {s : World}
    (there : s.1.processes[process]? = some p) (input : q.input = p.input) :
    Flowing s (s.1.setProcess process q, s.2) :=
  fun flows => flows.set rfl there rfl (.inl input)

theorem flowing_endReader (process : Nat) (state : ReaderState) :
    Ensures Flowing (endReader process state) := by
  intro s flows
  unfold endReader
  rw [update_apply]
  dsimp only
  split
  · rename_i p there
    exact flows.set rfl there rfl (.inl rfl)
  · exact flows.congr rfl rfl

theorem flowing_handle (process : Nat) (payload : Json) :
    Ensures Flowing (handle process payload) := by
  intro s flows
  rcases handle_cases process payload s with ⟨⟨state, stopped⟩, _⟩ | ⟨writes, new, replied, dealt⟩
  · rw [stopped]
    exact flows
  · rw [dealt]
    have free : writes = [] := by
      cases replied with
      | silent unasked => exact flows.free
      | done id current asked known free takes => exact free
      | drains id current asked known free full => exact absurd full flows.not_full
      | queues id current asked known busy => exact absurd flows.free busy
    exact ⟨free, flows.room⟩

theorem flowing_readOutput (process : Nat) : Ensures Flowing (readOutput process) := by
  refine ensures_look fun c => ?_
  split
  · exact ensures_readMessages_of (fun state _ => flowing_endReader process state)
      (fun _ _ _ there _ => flowing_setProcess there rfl) (flowing_handle process) _
  · exact ensures_pure _

/-- No write takes time before a process is full. -/
theorem flows_step (now : Int) {c : Client} {e : Event} (fills : e.fills = false)
    (flows : Flows c) : Flows (step now c e).1 := by
  have adjusted : ∀ {process f}, (∀ p ∈ c.processes,
      (f p).input = p.input ∨ (f p).input.isFull = false) → Flows (adjust process f c) := by
    intro process f input
    unfold adjust
    split
    · rename_i p there
      exact flows.set rfl there rfl (input p (List.mem_of_getElem? there))
    · exact flows
  cases about : e.call? with
  | some call => exact (tended_step now about).flows flows
  | none =>
    cases e with
    | output process bytes =>
      exact flowing_readOutput process (adjust process _ c, []) (adjusted fun _ _ => .inl rfl)
    | outputEnded process =>
      exact flowing_readOutput process (adjust process _ c, []) (adjusted fun _ _ => .inl rfl)
    | exited process => exact adjusted fun _ _ => .inl rfl
    | input process state =>
      let noticed (p : ServerProcess) : ServerProcess := { p with input := p.input.next state }
      have flows : Flows (adjust process noticed c) := by
        refine adjusted fun p member => .inr ?_
        have room := flows.room p member
        change (p.input.next state).isFull = false
        cases p.input <;> cases state <;> first | rfl | cases room | cases fills
      refine ⟨?_, flows.room⟩
      change (adjust process noticed c).writes.map _ = []
      rw [flows.free]
      rfl
    | readerResumed process =>
      obtain ⟨sent, after, resumes, resumed⟩ := resumeWrite_cases (.reader process) (c, [])
      obtain ⟨rfl, rfl⟩ := resumes.flows flows
      rw [step_readerResumed now resumed]
      exact flows
    | _ => cases about

theorem flows_ofSetup (setup : ServerSetup) : Flows (ofSetup setup) :=
  ⟨rfl, fun _ none => nomatch none⟩

end Client

end TemplateTypes
