import TemplateTypes.Proofs.Server.Processes
import TemplateTypes.Server.Message

namespace TemplateTypes

@[simp]
def Input.isFull : Input → Bool
  | .full => true
  | _ => false

@[simp]
def Input.isLost : Input → Bool
  | .lost _ => true
  | _ => false

@[simp]
def Progress.isQueued : Progress → Bool
  | .queued => true
  | _ => false

def Writing.isCall (w : Writing) : Bool := w.writer matches .call _

def Writing.isLost (w : Writing) : Bool := w.progress matches .drained (some _)

/-- What is known of a write besides how far it is; a queued one has not been begun. -/
def Writing.entry (w : Writing) : Writer × Json × Option Int × Bool :=
  (w.writer, w.payload, w.limit, w.progress.isQueued)

namespace Client

def callWrites (c : Client) : List (Writer × Json × Option Int × Bool) :=
  (c.writes.filter (·.isCall)).map Writing.entry

def readerWrites (c : Client) : List (Writer × Json × Option Int × Bool) :=
  (c.writes.filter (!·.isCall)).map Writing.entry

/-- The replies that readers are about to write. -/
def owed (c : Client) : List Json :=
  c.readerWrites.filterMap fun (_, payload, _, queued) => if queued then some payload else none

/-- No one has two writes, and readers write nothing but replies. -/
structure Lined (c : Client) : Prop where
  distinct : (c.writes.map (·.writer)).Nodup
  replies : ∀ w ∈ c.writes, w.isCall = false → ∃ id, w.payload = Message.reply id

theorem Lined.congr {c d : Client} (lined : Lined c) (writes : d.writes = c.writes) : Lined d :=
  ⟨writes ▸ lined.distinct, writes ▸ lined.replies⟩

theorem callWrites_congr {c d : Client} (writes : d.writes = c.writes) :
    d.callWrites = c.callWrites := by
  unfold callWrites
  rw [writes]

theorem readerWrites_congr {c d : Client} (writes : d.writes = c.writes) :
    d.readerWrites = c.readerWrites := by
  unfold readerWrites
  rw [writes]

theorem owed_congr {c d : Client} (readers : d.readerWrites = c.readerWrites) :
    d.owed = c.owed := by
  unfold owed
  rw [readers]

theorem isWriting_iff {c : Client} {writer : Writer} :
    c.isWriting writer = true ↔ ∃ w ∈ c.writes, w.writer = writer := by
  simp [isWriting]

/-- Someone who is not writing begins to, or gets in line. -/
theorem Lined.add {c d : Client} {w : Writing} (lined : Lined c)
    (idle : c.isWriting w.writer = false)
    (reply : w.isCall = false → ∃ id, w.payload = Message.reply id)
    (writes : d.writes = w :: c.writes ∨ d.writes = c.writes ++ [w]) : Lined d := by
  have apart : ∀ v ∈ c.writes, v.writer ≠ w.writer := by
    intro v member same
    rw [isWriting, List.any_eq_false] at idle
    exact idle v member (beq_iff_eq.mpr same)
  constructor
  · have distinct := lined.distinct
    rcases writes with writes | writes
    · rw [writes, List.map_cons, List.nodup_cons]
      refine ⟨fun again => ?_, distinct⟩
      obtain ⟨v, member, same⟩ := List.mem_map.mp again
      exact apart v member same
    · rw [writes, List.map_append, List.nodup_append]
      refine ⟨distinct, by simp, fun writer old writer' single same => ?_⟩
      obtain ⟨v, member, rfl⟩ := List.mem_map.mp old
      rw [List.map_singleton, List.mem_singleton] at single
      exact apart v member (same.trans single)
  · intro v member reader
    have old : v = w ∨ v ∈ c.writes := by
      rcases writes with writes | writes
      · rw [writes] at member
        exact List.mem_cons.mp member
      · rw [writes] at member
        simpa [or_comm] using member
    rcases old with rfl | old
    · exact reply reader
    · exact lined.replies v old reader

theorem entry_next (process : Nat) (state : Input) (w : Writing) :
    Writing.entry { w with progress := w.progress.next process state } = w.entry := by
  obtain ⟨writer, payload, limit, progress⟩ := w
  cases progress with
  | draining p =>
    unfold Writing.entry Progress.next
    by_cases same : (p == process) = true
    · cases state <;> simp [same]
    · simp [same]
  | _ => rfl

theorem callWrites_wake (process : Nat) (state : Input) (c : Client) :
    (wake process state c).callWrites = c.callWrites := by
  unfold callWrites wake
  dsimp only
  rw [List.filter_map, List.map_map]
  exact List.map_congr_left fun w _ => entry_next process state w

theorem readerWrites_wake (process : Nat) (state : Input) (c : Client) :
    (wake process state c).readerWrites = c.readerWrites := by
  unfold readerWrites wake
  dsimp only
  rw [List.filter_map, List.map_map]
  exact List.map_congr_left fun w _ => entry_next process state w

theorem Lined.wake {c : Client} (lined : Lined c) (process : Nat) (state : Input) :
    Lined (wake process state c) := by
  obtain ⟨distinct, replies⟩ := lined
  constructor
  · unfold Client.wake
    rw [List.map_map]
    exact distinct
  · intro w member reader
    obtain ⟨v, old, rfl⟩ := List.mem_map.mp member
    exact replies v old reader

theorem input_setProcess {c : Client} {process : Nat} {p q : ServerProcess}
    (there : c.processes[process]? = some p) (alive : q.alive = p.alive)
    (input : q.input = p.input) (other : Nat) :
    (c.setProcess process q).input other = c.input other := by
  obtain ⟨bound, own⟩ := List.getElem?_eq_some_iff.mp there
  unfold Client.input setProcess
  by_cases same : process = other
  · subst same
    rw [List.getElem?_set_self bound, there]
    simp only [alive, input]
  · rw [List.getElem?_set_ne same]

/-- What comes of writing for a writer that has its turn. -/
inductive Puts (writer : Writer) (payload : Json) (limit : Option Int) (c : Client) :
    Sent → List Writing → List Effect → Prop
  | done (process : Nat) (current : c.current = some process)
    (takes : c.input process = .taking) :
    Puts writer payload limit c .done c.writes [.write process payload]
  | drains (process : Nat) (current : c.current = some process) (full : c.input process = .full) :
    Puts writer payload limit c .waits
      (⟨writer, payload, limit, .draining process⟩ :: c.writes) [.write process payload]
  | unknown (current : c.current = none) :
    Puts writer payload limit c (.failed .unknownProcess) c.writes []
  | lost (process : Nat) (reason : Text) (current : c.current = some process)
    (lost : c.input process = .lost reason) :
    Puts writer payload limit c (.failed (.lost "Connection lost".toList)) c.writes []

theorem put_cases (writer : Writer) (payload : Json) (limit : Option Int) (s : World) :
    ∃ sent writes new, Puts writer payload limit s.1 sent writes new ∧
      put writer payload limit s = (sent, withWrites writes s.1, s.2 ++ new) := by
  unfold put
  rw [bind_apply, read_apply]
  dsimp only
  cases current : s.1.current with
  | none => exact ⟨_, _, [], .unknown current, by rw [List.append_nil]; rfl⟩
  | some process =>
    dsimp only
    cases takes : s.1.input process with
    | taking => exact ⟨_, _, _, .done process current takes, rfl⟩
    | full => exact ⟨_, _, _, .drains process current takes, rfl⟩
    | lost reason =>
      exact ⟨_, _, [], .lost process reason current takes, by rw [List.append_nil]; rfl⟩

/-- What comes of writing: it begins at once unless another write is under way. -/
inductive Sends (writer : Writer) (payload : Json) (limit : Option Int) (s : World) :
    Sent → World → Prop
  | notRunning (current : s.1.current = none) : Sends writer payload limit s (.failed .notRunning) s
  | lost (process : Nat) (reason : Text) (current : s.1.current = some process)
    (free : s.1.writes = []) (lost : s.1.input process = .lost reason) :
    Sends writer payload limit s (.failed (.lost "Connection lost".toList)) s
  | done (process : Nat) (current : s.1.current = some process) (free : s.1.writes = [])
    (takes : s.1.input process = .taking) :
    Sends writer payload limit s .done (s.1, s.2 ++ [.write process payload])
  | drains (process : Nat) (current : s.1.current = some process) (free : s.1.writes = [])
    (full : s.1.input process = .full) :
    Sends writer payload limit s .waits
      (withWrites [⟨writer, payload, limit, .draining process⟩] s.1,
        s.2 ++ [.write process payload])
  | queues (process : Nat) (current : s.1.current = some process) (busy : s.1.writes ≠ []) :
    Sends writer payload limit s .waits
      (withWrites (s.1.writes ++ [⟨writer, payload, limit, .queued⟩]) s.1, s.2)

theorem send_cases (writer : Writer) (payload : Json) (limit : Option Int) (s : World) :
    ∃ sent after, Sends writer payload limit s sent after ∧
      send writer payload limit s = (sent, after) := by
  unfold send
  rw [bind_apply, read_apply]
  dsimp only
  cases current : s.1.current with
  | none => exact ⟨_, _, .notRunning current, rfl⟩
  | some process =>
    by_cases free : s.1.writes = []
    · obtain ⟨sent, writes, new, puts, put⟩ := put_cases writer payload limit s
      rw [free]
      refine ⟨_, _, ?_, put⟩
      have same : withWrites s.1.writes s.1 = s.1 := rfl
      cases puts with
      | done process current takes => exact .done process current free takes
      | drains process current full =>
        rw [free]
        exact .drains process current free full
      | unknown none => cases none.symm.trans current
      | lost process reason current lost =>
        rw [same, List.append_nil]
        exact .lost process reason current free lost
    · have busy : s.1.writes.isEmpty = false := by simpa using free
      rw [busy]
      exact ⟨_, _, .queues process current free, rfl⟩

/-- What comes of going on with a write. -/
inductive Resumes (writer : Writer) (s : World) : Sent → World → Prop
  | still (held : s.1.canWrite writer = false) : Resumes writer s .waits s
  | drained (w : Writing) (more : List Writing) (writes : s.1.writes = w :: more)
    (own : w.writer = writer) (progress : w.progress = .drained none) :
    Resumes writer s .done (withWrites more s.1, s.2)
  | lost (w : Writing) (more : List Writing) (reason : Text) (writes : s.1.writes = w :: more)
    (own : w.writer = writer) (progress : w.progress = .drained (some reason)) :
    Resumes writer s (.failed (.lost reason)) (withWrites more s.1, s.2)
  | begun (w : Writing) (more : List Writing) (writes : s.1.writes = w :: more)
    (own : w.writer = writer) (progress : w.progress = .queued) {sent : Sent}
    {queue : List Writing} {new : List Effect}
    (puts : Puts writer w.payload w.limit (withWrites more s.1) sent queue new) :
    Resumes writer s sent (withWrites queue s.1, s.2 ++ new)

theorem resumeWrite_cases (writer : Writer) (s : World) :
    ∃ sent after, Resumes writer s sent after ∧ resumeWrite writer s = (sent, after) := by
  unfold resumeWrite
  rw [bind_apply, read_apply]
  dsimp only
  cases writes : s.1.writes with
  | nil =>
    have held : s.1.canWrite writer = false := by simp [canWrite, writes]
    exact ⟨_, _, .still held, by rw [held]; rfl⟩
  | cons w more =>
    cases turn : s.1.canWrite writer with
    | false => exact ⟨_, _, .still turn, rfl⟩
    | true =>
      obtain ⟨owner, payload, limit, progress⟩ := w
      unfold canWrite at turn
      rw [writes] at turn
      cases progress with
      | draining process => cases turn
      | drained lost =>
        have own : owner = writer := beq_iff_eq.mp turn
        cases lost with
        | none => exact ⟨_, _, .drained _ more writes own rfl, rfl⟩
        | some reason => exact ⟨_, _, .lost _ more reason writes own rfl, rfl⟩
      | queued =>
        have own : owner = writer := beq_iff_eq.mp turn
        obtain ⟨sent, queue, new, puts, put⟩ :=
          put_cases writer payload limit (withWrites more s.1, s.2)
        exact ⟨_, _, .begun _ more writes own rfl puts, put⟩

/-- The current process is not known to be lost, so that a write to it does not fail at once. -/
def isReachable (c : Client) : Bool :=
  c.current.any fun process => !(c.input process).isLost

/-- The first write is over, or it goes on as `v`. -/
structure Advances (writer : Writer) (w : Writing) (more : List Writing) (v : Option Writing)
    (new : List Effect) (s : World) (sent : Sent) (after : World) : Prop where
  writes : s.1.writes = w :: more
  own : w.writer = writer
  result : after = (withWrites (v.toList ++ more) s.1, s.2 ++ new)
  goesOn : ∀ x ∈ v, x.writer = writer ∧ x.payload = w.payload ∧ x.limit = w.limit ∧
    ∃ process, x.progress = .draining process
  wrote : new = [] ∧ (w.progress = .queued → s.1.isReachable = false) ∨
    w.progress = .queued ∧ ∃ process, s.1.current = some process ∧ new = [.write process w.payload]
  fails : ∀ e, sent = .failed e → new = []
  waits : sent = .waits ↔ v.isSome = true
  begun : v.isSome = true → w.progress = .queued

theorem Resumes.advances {writer : Writer} {s after : World} {sent : Sent}
    (resumes : Resumes writer s sent after) :
    (s.1.canWrite writer = false ∧ sent = .waits ∧ after = s) ∨
      ∃ w more v new, Advances writer w more v new s sent after := by
  cases resumes with
  | still held => exact .inl ⟨held, rfl, rfl⟩
  | drained w more writes own progress =>
    exact .inr ⟨w, more, none, [], writes, own, by simp, by simp, .inl ⟨rfl, by simp [progress]⟩,
      by simp, by simp, by simp⟩
  | lost w more reason writes own progress =>
    exact .inr ⟨w, more, none, [], writes, own, by simp, by simp, .inl ⟨rfl, by simp [progress]⟩,
      by simp, by simp, by simp⟩
  | begun w more writes own progress puts =>
    cases puts with
    | done process current takes =>
      exact .inr ⟨w, more, none, _, writes, own, rfl, by simp,
        .inr ⟨progress, process, current, rfl⟩, by simp, by simp, by simp⟩
    | drains process current full =>
      let v : Writing := ⟨writer, w.payload, w.limit, .draining process⟩
      refine .inr ⟨w, more, some v, _, writes, own, rfl, ?_,
        .inr ⟨progress, process, current, rfl⟩, by simp, by simp, fun _ => progress⟩
      rintro x ⟨⟩
      exact ⟨rfl, rfl, rfl, process, rfl⟩
    | unknown none =>
      have current : s.1.current = Option.none := none
      exact .inr ⟨w, more, .none, [], writes, own, rfl, by simp,
        .inl ⟨rfl, fun _ => by simp [isReachable, current]⟩, by simp, by simp, by simp⟩
    | lost process reason current lost =>
      have known : s.1.current = some process := current
      have gone : s.1.input process = .lost reason := lost
      exact .inr ⟨w, more, .none, [], writes, own, rfl, by simp,
        .inl ⟨rfl, fun _ => by simp [isReachable, known, gone]⟩, by simp, by simp, by simp⟩

theorem Advances.lined {writer : Writer} {w : Writing} {more : List Writing} {v : Option Writing}
    {new : List Effect} {s after : World} {sent : Sent}
    (advances : Advances writer w more v new s sent after) (lined : Lined s.1) : Lined after.1 := by
  obtain ⟨writes, own, result, goesOn, _, _, _, _⟩ := advances
  obtain ⟨distinct, replies⟩ := lined
  rw [writes] at distinct replies
  have queue : after.1.writes = v.toList ++ more := by rw [result]; rfl
  cases v with
  | none =>
    change after.1.writes = more at queue
    refine ⟨?_, fun x member => replies x (List.mem_cons_of_mem _ (queue ▸ member))⟩
    rw [queue]
    exact (List.nodup_cons.mp distinct).2
  | some v =>
    obtain ⟨same, payload, _⟩ := goesOn v rfl
    constructor
    · rw [queue, List.map_append]
      change (v.writer :: _).Nodup
      rw [same, ← own]
      exact distinct
    · intro x member reader
      rw [queue] at member
      rcases List.mem_cons.mp member with rfl | old
      · rw [payload]
        refine replies w List.mem_cons_self ?_
        rw [← reader]
        simp [Writing.isCall, own, same]
      · exact replies x (List.mem_cons_of_mem _ old) reader

/-- Whoever has not to go on waiting writes no more. -/
theorem Advances.idle {writer : Writer} {w : Writing} {more : List Writing} {new : List Effect}
    {s after : World} {sent : Sent} (advances : Advances writer w more none new s sent after)
    (lined : Lined s.1) : after.1.isWriting writer = false := by
  obtain ⟨writes, own, result, _, _, _, _, _⟩ := advances
  have distinct := lined.distinct
  rw [writes, List.map_cons, own] at distinct
  rw [result, isWriting, List.any_eq_false]
  intro x member same
  exact (List.nodup_cons.mp distinct).1 (List.mem_map.mpr ⟨x, member, beq_iff_eq.mp same⟩)

/-- No process keeps anyone waiting who writes to it, and no write is under way. -/
structure Flows (c : Client) : Prop where
  free : c.writes = []
  room : ∀ p ∈ c.processes, p.input.isFull = false

theorem Flows.congr {c d : Client} (flows : Flows c) (writes : d.writes = c.writes)
    (processes : d.processes = c.processes) : Flows d :=
  ⟨writes.trans flows.free, processes ▸ flows.room⟩

theorem Flows.set {c d : Client} {process : Nat} {p q : ServerProcess} (flows : Flows c)
    (writes : d.writes = c.writes) (there : c.processes[process]? = some p)
    (processes : d.processes = c.processes.set process q)
    (input : q.input = p.input ∨ q.input.isFull = false) : Flows d := by
  refine ⟨writes.trans flows.free, fun r member => ?_⟩
  rw [processes] at member
  rcases List.mem_or_eq_of_mem_set member with old | rfl
  · exact flows.room r old
  · rcases input with same | room
    · rw [same]
      exact flows.room p (List.mem_of_getElem? there)
    · exact room

theorem Flows.not_isWriting {c : Client} (flows : Flows c) (writer : Writer) :
    c.isWriting writer = false := by
  rw [isWriting, flows.free]
  rfl

theorem Flows.not_full {c : Client} (flows : Flows c) {process : Nat} :
    c.input process ≠ .full := by
  intro full
  unfold Client.input at full
  cases there : c.processes[process]? with
  | none =>
    rw [there] at full
    cases full
  | some p =>
    rw [there] at full
    have room := flows.room p (List.mem_of_getElem? there)
    dsimp only at full
    split at full
    · rw [full] at room
      cases room
    · cases full

theorem Sends.flows {writer : Writer} {payload : Json} {limit : Option Int} {s after : World}
    {sent : Sent} (sends : Sends writer payload limit s sent after) (flows : Flows s.1) :
    sent ≠ .waits ∧ Flows after.1 := by
  cases sends with
  | notRunning current => exact ⟨by simp, flows⟩
  | lost process reason current free lost => exact ⟨by simp, flows⟩
  | done process current free takes => exact ⟨by simp, flows⟩
  | drains process current free full => exact absurd full flows.not_full
  | queues process current busy => exact absurd flows.free busy

theorem Resumes.flows {writer : Writer} {s after : World} {sent : Sent}
    (resumes : Resumes writer s sent after) (flows : Flows s.1) : sent = .waits ∧ after = s := by
  rcases resumes.advances with ⟨_, still⟩ | ⟨w, more, v, new, advances⟩
  · exact still
  · cases flows.free.symm.trans advances.writes

end Client

end TemplateTypes
