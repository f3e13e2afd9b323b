import TemplateTypes.Proofs.Server.Listening
import Mathlib.Data.List.Nodup

namespace TemplateTypes

namespace Client

def Wrote (effects : List Effect) (request process : Nat) : Prop :=
  ∃ method params, .write process (Message.request request method params) ∈ effects

/-- At the event no request fails, without an answer that says so, because of another server than
    the one that it was written to, and the client stays ready unless its own server's output ends
    or it is shut down. -/
structure Undisturbed (s : World) (now : Int) (e : Event) : Prop where
  requests : ∀ request process, Wrote s.2 request process → s.1.isUnsettled request = true →
    (step now s.1 e).1.outcome? request = some (.error exitFault) →
      Message.firstAnswer request (s.1.arrived e) ≠ some (.error exitFault) →
        (step now s.1 e).1.isRead process = false
  ready : s.1.initialized = true → (step now s.1 e).1.initialized = false →
    (s.1.closing? e).isSome = true ∨ ∃ process, s.1.current = some process ∧
      s.1.isRead process = true ∧ (step now s.1 e).1.isRead process = false

/-- A process is the current one if the client is ready, and no open request has been written to
    another one that is read. -/
def StandsAlone (s : World) (process : Nat) : Prop :=
  (s.1.initialized = true → s.1.current = some process) ∧
    ∀ request other, Wrote s.2 request other → s.1.isUnsettled request = true →
      other = process ∨ s.1.isRead other = false

def Secure (s : World) : Prop := ∀ process, s.1.isRead process = true → StandsAlone s process

def SpawnsInTurn (c : Client) (_ : Int) (e : Event) : Prop :=
  c.spawnsFor e = true → ∀ p ∈ c.processes, p.reader.isOver = true

instance (c : Client) (now : Int) (e : Event) : Decidable (SpawnsInTurn c now e) :=
  inferInstanceAs (Decidable (c.spawnsFor e = true → ∀ p ∈ c.processes, p.reader.isOver = true))

section

variable {c : Client} {request : Nat}

theorem find?_of_unsettled (booked : Booked c) (unsettled : c.isUnsettled request = true) :
    c.pending.find? (·.id == request) = some ⟨request, none⟩ := by
  obtain ⟨⟨id, own⟩, member, same⟩ := List.any_eq_true.mp unsettled
  simp only [Bool.and_eq_true, beq_iff_eq, Option.isNone_iff_eq_none] at same
  obtain ⟨rfl, rfl⟩ := same
  rw [List.find?_eq_some_iff_append]
  refine ⟨by simp, ?_⟩
  obtain ⟨before, after, whole⟩ := List.append_of_mem member
  refine ⟨before, after, whole, fun p earlier => ?_⟩
  have ascending := booked.ascending
  rw [whole, List.map_append, List.pairwise_append] at ascending
  have below := ascending.2.2 p.id (List.mem_map_of_mem earlier) id (by simp)
  simp only [Bool.not_eq_true', beq_eq_false_iff_ne]
  omega

theorem SettlesNone.outcome?_of_some {before after : World} (settles : SettlesNone before after)
    (booked : Booked before.1) {outcome : Except Fault Json}
    (settled : after.1.outcome? request = some outcome) :
    before.1.outcome? request = some outcome := by
  obtain ⟨p, found, own⟩ := Option.bind_eq_some_iff.mp settled
  have same : p.id = request := by simpa using List.find?_some found
  have old := settles p (List.mem_of_find?_eq_some found) (by simp [own])
  cases there : before.1.pending.find? (·.id == request) with
  | none => exact absurd same (by simpa using List.find?_eq_none.mp there p old)
  | some q =>
    have found : q.id = request := by simpa using List.find?_some there
    have sameId : q.id = p.id := found.trans same.symm
    have one := List.inj_on_of_nodup_map (booked.ascending.imp Nat.ne_of_lt)
      (List.mem_of_find?_eq_some there) old sameId
    unfold Client.outcome?
    rw [there, one]
    exact own

theorem SettlesNone.outcome? {before after : World} (settles : SettlesNone before after)
    (booked : Booked before.1) (unsettled : before.1.isUnsettled request = true) :
    after.1.outcome? request = none := by
  cases settled : after.1.outcome? request with
  | none => rfl
  | some outcome =>
    have old := settles.outcome?_of_some booked settled
    unfold Client.outcome? at old
    rw [find?_of_unsettled booked unsettled] at old
    cases old

theorem outcome?_of_told {d : Client} {answer : Nat → Option (Except Fault Json)}
    (booked : Booked c) (unsettled : c.isUnsettled request = true)
    (told : d.pending = tell answer c.pending) : d.outcome? request = answer request := by
  have found := find?_of_unsettled booked unsettled
  have known : request ∈ c.pending.map (·.id) :=
    List.mem_map.mpr ⟨_, List.mem_of_find?_eq_some found, rfl⟩
  rw [outcome?_of_tell known told, Client.outcome?, found]
  rfl

end

theorem booked_run (setup : ServerSetup) {events : List (Int × Event)}
    (distinct : (begun events).Nodup) : Booked (run (ofSetup setup) events).1 := by
  have orderly := orderly_ofSetup setup distinct
  exact (Orderly.run events [] (by rwa [List.append_nil])).booked

section

variable {s : World}

theorem Tended.undisturbed {now : Int} {e : Event}
    (tended : Tended (s.1.closing? e).isSome (Flows s.1) (s.1, []) (step now s.1 e)) (booked : Booked s.1)
    (secure : Secure s) : Undisturbed s now e := by
  have settling : SettlesNone (s.1, []) (step now s.1 e) →
      ∀ request, s.1.isUnsettled request = true →
        (step now s.1 e).1.outcome? request ≠ some (.error exitFault) := by
    intro settles request unsettled failed
    rw [settles.outcome? booked unsettled] at failed
    cases failed
  have ready : s.1.initialized = true → (step now s.1 e).1.initialized = s.1.initialized →
      (step now s.1 e).1.initialized ≠ false := by
    intro ready same unready
    rw [same, ready] at unready
    cases unready
  cases tended with
  | apart apart =>
    exact ⟨fun request _ _ unsettled failed =>
        absurd failed (settling apart.settled request unsettled),
      fun before after => absurd after (ready before apart.initialized)⟩
  | spawned nesting processes current reader initialized settled writes =>
    exact ⟨fun request _ _ unsettled failed => absurd failed (settling settled request unsettled),
      fun before after => absurd after (ready before initialized)⟩
  | ready processes current reader known nowReady settled writes =>
    refine ⟨fun request _ _ unsettled failed =>
      absurd failed (settling settled request unsettled), fun _ unready => ?_⟩
    rw [nowReady] at unready
    cases unready
  | stopped closing process p waited there reading processes current reader unready writes =>
    refine ⟨fun request other wrote unsettled _ _ => ?_, fun _ _ => .inl closing⟩
    have read : s.1.isRead process = true := isRead_iff.mpr ⟨p, there, reading⟩
    have stopped : (step now s.1 e).1.processes[process]? =
        some { p with reader := .finished } := by
      rw [processes]
      exact List.getElem?_set_self (lt_of_isRead read)
    by_cases same : other = process
    · subst same
      exact isRead_of_getElem? stopped
    · have apart : (step now s.1 e).1.isRead other = s.1.isRead other := by
        apply isRead_congr
        rw [processes]
        exact List.getElem?_set_ne (Ne.symm same)
      rcases (secure process read).2 request other wrote unsettled with own | unread
      · exact absurd own same
      · exact apart.trans unread
  | forgot closing processes current reader unready settled writes =>
    exact ⟨fun request _ _ unsettled failed => absurd failed (settling settled request unsettled),
      fun _ _ => .inl closing⟩

theorem Noticed.undisturbed {now : Int} {e : Event}
    (noticed : Noticed s.1 e.process? (s.1.arrived e) (step now s.1 e)) (booked : Booked s.1)
    (attentive : Attentive s.1) (secure : Secure s) : Undisturbed s now e := by
  cases noticed with
  | listens process own read listens =>
    have read : s.1.isRead process = true :=
      read.elim id fun writing => attentive.awake process writing.1
    cases listens.own with
    | waits p there reading waits initialized told =>
      refine ⟨fun request other wrote unsettled failed unheard => ?_, fun ready unready => ?_⟩
      · rw [outcome?_of_told booked unsettled told] at failed
        exact absurd failed unheard
      · rw [initialized, ready] at unready
        cases unready
    | ends ended idle unready =>
      obtain ⟨current, alone⟩ := secure process read
      refine ⟨fun request other wrote unsettled _ _ => ?_, fun ready _ =>
        .inr ⟨process, current ready, read, ended⟩⟩
      by_cases same : other = process
      · rw [same]
        exact ended
      · rw [isRead_congr (listens.elsewhere.processes other same)]
        exact (alone request other wrote unsettled).resolve_left same
  | passes silent initialized pending held reads attends =>
    refine ⟨fun request other wrote unsettled failed _ => ?_, fun ready unready => ?_⟩
    · have settles : SettlesNone (s.1, []) (step now s.1 e) := fun q there _ => pending ▸ there
      rw [settles.outcome? booked unsettled] at failed
      cases failed
    · rw [initialized, ready] at unready
      cases unready

/-- The output of a process ends whose reader does not write. -/
theorem step_outputEnded {c : Client} (attentive : Attentive c) {process : Nat} {p : ServerProcess}
    (there : c.processes[process]? = some p) (reading : p.reader = .reading)
    (idle : c.isWriting (.reader process) = false) (now : Int) :
    c.arrived (.outputEnded process) = [] ∧ step now c (.outputEnded process) =
      (endReader process .finished
        (c.setProcess process { p with outputEnded := true }, [])).2 := by
  have ends : Frame.next p.nesting p.unread true = .ended :=
    Frame.next_of_wait (attentive.caughtUp process p there reading idle)
  let f (p : ServerProcess) : ServerProcess := { p with outputEnded := true }
  have adjusted : adjust process f c = c.setProcess process (f p) := by
    unfold adjust
    rw [there]
  obtain ⟨alive, unread, ended, reader, nesting, input⟩ := p
  obtain rfl : reader = .reading := reading
  let closed : Client := c.setProcess process ⟨alive, unread, true, .reading, nesting, input⟩
  have known : closed.processes[process]? = some ⟨alive, unread, true, .reading, nesting, input⟩ :=
    getElem?_setProcess there
  have free : closed.isWriting (.reader process) = false := idle
  constructor
  · unfold arrived
    dsimp only
    rw [show adjust process (fun p => { p with outputEnded := true }) c = closed from adjusted]
    unfold heardFrom
    rw [free, known]
    dsimp only [ServerProcess.messages]
    rw [Frame.messages, ends]
    rfl
  · have stepped : step now c (.outputEnded process) =
        (readOutput process (adjust process f c, [])).2 := rfl
    rw [stepped, show adjust process f c = closed from adjusted]
    unfold readOutput
    rw [bind_apply, read_apply]
    dsimp only
    rw [known]
    dsimp only
    unfold readMessages
    rw [bind_apply, read_apply]
    dsimp only
    rw [free, if_neg (by decide), known]
    dsimp only
    rw [ends]

theorem pending_outputEnded {c : Client} (attentive : Attentive c) {process : Nat}
    {p : ServerProcess} (there : c.processes[process]? = some p) (reading : p.reader = .reading)
    (idle : c.isWriting (.reader process) = false) (now : Int) :
    (step now c (.outputEnded process)).1.pending =
      tell (fun _ => some (.error exitFault)) c.pending := by
  rw [(step_outputEnded attentive there reading idle now).2, endReader_pending]
  rfl

theorem undisturbed_of_secure (booked : Booked s.1) (attentive : Attentive s.1)
    (secure : Secure s) (now : Int) (e : Event) : Undisturbed s now e := by
  cases about : e.call? with
  | some call => exact (tended_step now about).undisturbed booked secure
  | none => exact (noticed_step now booked.lined about).undisturbed booked attentive secure

theorem standsAlone_of_undisturbed (booked : Booked s.1) (attentive : Attentive s.1)
    (undisturbed : ∀ now e, Undisturbed s now e) {process : Nat} (read : s.1.isRead process = true)
    (idle : s.1.isWriting (.reader process) = false) : StandsAlone s process := by
  obtain ⟨p, there, reading⟩ := isRead_iff.mp read
  obtain ⟨silent, stepped⟩ := step_outputEnded attentive there reading idle 0
  obtain ⟨requests, ready⟩ := undisturbed 0 (.outputEnded process)
  have unready : (step 0 s.1 (.outputEnded process)).1.initialized = false := by
    rw [stepped]
    rfl
  have others : ∀ other, other ≠ process →
      (step 0 s.1 (.outputEnded process)).1.isRead other = s.1.isRead other := by
    intro other apart
    apply isRead_congr
    rw [stepped]
    unfold endReader
    rw [update_apply]
    dsimp only
    rw [getElem?_setProcess there]
    exact (getElem?_setProcess_ne apart _).trans (getElem?_setProcess_ne apart _)
  refine ⟨fun before => ?_, fun request other wrote unsettled => ?_⟩
  · rcases ready before unready with closing | ⟨own, current, wasRead, ended⟩
    · cases closing
    · by_cases same : own = process
      · rw [current, same]
      · rw [others own same, wasRead] at ended
        cases ended
  · by_cases same : other = process
    · exact .inl same
    · right
      rw [← others other same]
      refine requests request other wrote unsettled ?_ ?_
      · exact outcome?_of_told booked unsettled
          (pending_outputEnded attentive there reading idle 0)
      · rw [silent]
        exact Option.some_ne_none _ ∘ Eq.symm

end

structure OnlyNewest (c : Client) : Prop where
  read : ∀ process, c.isRead process = true → process + 1 = c.processes.length
  current : ∀ process, c.current = some process → process + 1 = c.processes.length

theorem isRead_of_aged {before after : Client} (aged : Aged before.processes after.processes)
    {process : Nat} (known : process < before.processes.length)
    (read : after.isRead process = true) : before.isRead process = true := by
  obtain ⟨q, there, _, stopped, _⟩ := aged process _ (List.getElem?_eq_getElem known)
  obtain ⟨q', there', reading⟩ := isRead_iff.mp read
  obtain rfl := Option.some.inj (there.symm.trans there')
  rw [isRead_of_getElem? (List.getElem?_eq_getElem known)]
  cases finished : before.processes[process].reader.isOver with
  | false => rfl
  | true =>
    rw [reading] at stopped
    cases stopped finished

theorem onlyNewest_step {c : Client} {now : Int} {e : Event} (only : OnlyNewest c)
    (inTurn : SpawnsInTurn c now e) : OnlyNewest (step now c e).1 := by
  have moved := step_moved now c e
  have aged := (ages_step now c e).aged
  cases spawns : c.spawnsFor e with
  | false =>
    have length := moved.length spawns
    constructor
    · intro process read
      rw [length]
      have known := lt_of_isRead read
      rw [length] at known
      exact only.read process (isRead_of_aged aged known read)
    · intro process current
      rw [length]
      rcases moved.current_cases with accepted | same | forgotten
      · rw [spawns] at accepted
        cases accepted
      · exact only.current process (same.symm.trans current)
      · rw [forgotten] at current
        cases current
  | true =>
    have finished := inTurn spawns
    cases moved with
    | died process gone refused => rw [spawns] at refused; cases refused
    | closing call refused => rw [spawns] at refused; cases refused
    | still refused => rw [spawns] at refused; cases refused
    | spawned accepted unclosed alive newest =>
      have length : (step now c e).1.processes.length = c.processes.length + 1 := by
        rw [← length_aliveness, alive, List.length_append, length_aliveness]
        rfl
      constructor
      · intro process read
        have known := lt_of_isRead read
        rcases Nat.lt_or_ge process c.processes.length with old | new
        · have wasRead := isRead_of_aged aged old read
          obtain ⟨p, there, reading⟩ := isRead_iff.mp wasRead
          have ended := finished p (List.mem_of_getElem? there)
          rw [reading] at ended
          cases ended
        · omega
      · intro process current
        obtain rfl := Option.some.inj (newest.symm.trans current)
        exact length.symm

theorem onlyNewest_run {c : Client} {events : List (Int × Event)} (only : OnlyNewest c)
    (inTurn : EachStep SpawnsInTurn c events) : OnlyNewest (run c events).1 := by
  induction events generalizing c with
  | nil => exact only
  | cons event more ih => exact ih (onlyNewest_step only inTurn.1) inTurn.2

/-- A client that is ready has a process. -/
def Primed (c : Client) : Prop := c.initialized = true → c.current.isSome = true

theorem Tended.primed {closes : Bool} {flowing : Prop} {before after : World}
    (tended : Tended closes flowing before after) (flows : flowing) (primed : Primed before.1) :
    Primed after.1 := by
  intro ready
  cases tended with
  | apart apart => exact apart.current ▸ primed (apart.initialized ▸ ready)
  | spawned nesting processes current => rw [current]; rfl
  | ready processes current reader known => exact current ▸ known flows
  | stopped closing process p waited there reading processes current reader unready =>
    cases unready.symm.trans ready
  | forgot closing processes current reader unready => cases unready.symm.trans ready

theorem Noticed.ready {c : Client} {source : Option Nat} {arrived : List Json} {after : World}
    (noticed : Noticed c source arrived after) (ready : after.1.initialized = true) :
    c.initialized = true := by
  cases noticed with
  | listens process own read listens =>
    cases listens.own with
    | waits p there reading waits initialized told => exact initialized.symm.trans ready
    | ends ceased idle unready => cases unready.symm.trans ready
  | passes silent initialized pending held reads attends => exact initialized.symm.trans ready

theorem primed_run {c : Client} {events : List (Int × Event)} (orderly : Orderly c events)
    (room : ∀ event ∈ events, event.2.fills = false) (flows : Flows c) (primed : Primed c) :
    Primed (run c events).1 := by
  induction events generalizing c with
  | nil => exact primed
  | cons event more ih =>
    obtain ⟨here, later⟩ := List.forall_mem_cons.mp room
    refine ih (orderly.step event.1) later (flows_step event.1 here flows) ?_
    cases about : event.2.call? with
    | some call => exact (tended_step event.1 about).primed flows primed
    | none =>
      have noticed := noticed_step event.1 orderly.booked.lined about
      exact fun ready => noticed.held.current ▸ primed (noticed.ready ready)

theorem OnlyNewest.secure {s : World} (only : OnlyNewest s.1) (primed : Primed s.1) :
    Secure s := by
  intro process read
  have newest := only.read process read
  refine ⟨fun ready => ?_, fun request other _ _ => ?_⟩
  · obtain ⟨own, current⟩ := Option.isSome_iff_exists.mp (primed ready)
    have own' := only.current own current
    exact current.trans (congrArg some (by omega))
  · cases readToo : s.1.isRead other with
    | false => exact .inr rfl
    | true =>
      have := only.read other readToo
      exact .inl (by omega)

/-- Nothing that may happen disturbs a session if no earlier one is read beside it, and only then,
    unless the reader of that one has yet to write a reply. And so it is if each process is spawned
    when none is read any more, and none keeps waiting who writes to it. -/
theorem undisturbed_iff_secure (setup : ServerSetup) (events : List (Int × Event))
    (distinct : (begun events).Nodup) :
    let s := run (ofSetup setup) events
    (Secure s → ∀ now e, Undisturbed s now e) ∧
      ((∀ now e, Undisturbed s now e) → ∀ process, s.1.isRead process = true →
        s.1.isWriting (.reader process) = false → StandsAlone s process) ∧
      (EachStep SpawnsInTurn (ofSetup setup) events →
        (∀ event ∈ events, event.2.fills = false) → Secure s) := by
  intro s
  have booked : Booked s.1 := booked_run setup distinct
  have orderly := orderly_ofSetup setup distinct
  have attentive : Attentive s.1 := attentive_run orderly (attentive_ofSetup setup)
  refine ⟨undisturbed_of_secure booked attentive, fun undisturbed process =>
    standsAlone_of_undisturbed booked attentive undisturbed, fun inTurn room => ?_⟩
  have primed : Primed s.1 :=
    primed_run orderly room (flows_ofSetup setup) fun ready => nomatch ready
  refine OnlyNewest.secure
    (onlyNewest_run ⟨fun process read => ?_, fun process current => ?_⟩ inTurn) primed
  · simp [isRead, ofSetup] at read
  · cases current

/-- The server exits before another one is spawned in its place. -/
theorem undisturbed_after_exit :
    let answer (id : Nat) : Bytes := Frame.encode (.object [("id", .int id), ("result", .null)])
    let events : List (Int × Event) :=
      [(0, .begin 0 .start), (0, .spawned 0 none), (1, .output 0 (answer 1)), (1, .resume 0),
        (2, .exited 0), (2, .outputEnded 0), (3, .begin 1 .start), (3, .spawned 1 none),
        (4, .output 1 (answer 2)), (4, .resume 1), (5, .begin 2 (.request ['m'] .null none))]
    let s := run (ofSetup ⟨[['s']], ⟨['/'], []⟩, 1, 10000000, 100⟩) events
    s.1.initialized = true ∧ s.1.current = some 1 ∧ ∀ now e, Undisturbed s now e := by
  intro answer events s
  have inTurn : EachStep SpawnsInTurn (ofSetup ⟨[['s']], ⟨['/'], []⟩, 1, 10000000, 100⟩) events := by
    decide +kernel
  obtain ⟨undisturbed, _, secure⟩ :=
    undisturbed_iff_secure ⟨[['s']], ⟨['/'], []⟩, 1, 10000000, 100⟩ events (by decide)
  exact ⟨by decide +kernel, by decide +kernel, undisturbed (secure inTurn (by decide))⟩

/-- The first server has not answered in time, and is read until it exits while another one has
    taken its place: a request to that one fails, and the client is not ready any more. -/
theorem unanswered_session_disturbs_next :
    let events : List (Int × Event) :=
      [(0, .begin 0 .start), (0, .spawned 0 none), (10000000, .expired 0),
        (10001000, .begin 1 .start), (10001000, .spawned 1 none),
        (10001000, .output 1 (Frame.encode (.object [("id", .int 2), ("result", .null)]))),
        (10001000, .resume 1), (10001000, .begin 2 (.request ['m'] .null none)),
        (11000000, .exited 0)]
    let s := run (ofSetup ⟨[['s']], ⟨['/'], []⟩, 1, 10000000, 100⟩) events
    let after := (step 11000000 s.1 (.outputEnded 0)).1
    (begun events).Nodup ∧ after.outcome? 3 = some (.error exitFault) ∧
      after.isRunning = true ∧ after.initialized = false ∧
      ¬ Undisturbed s 11000000 (.outputEnded 0) := by
  intro events s
  have distinct : (begun events).Nodup := by decide
  have earlier : s.1.isRead 0 = true := by decide +kernel
  obtain ⟨p, there, reading⟩ := isRead_iff.mp earlier
  have unsettled : s.1.isUnsettled 3 = true := by decide +kernel
  have attentive : Attentive s.1 :=
    attentive_run (orderly_ofSetup _ distinct) (attentive_ofSetup _)
  have told := pending_outputEnded attentive there reading (by decide +kernel) 11000000
  have failed := outcome?_of_told (booked_run _ distinct) unsettled told
  have current : s.1.current = some 1 := by decide +kernel
  have ready : s.1.initialized = true := by decide +kernel
  have read : (step 11000000 s.1 (.outputEnded 0)).1.isRead 1 = true := by decide +kernel
  have unready : (step 11000000 s.1 (.outputEnded 0)).1.initialized = false := by decide +kernel
  refine ⟨distinct, failed, by decide +kernel, unready, fun undisturbed => ?_⟩
  rcases undisturbed.ready ready unready with closing | ⟨own, same, _, ended⟩
  · cases closing
  · obtain rfl := Option.some.inj (current.symm.trans same)
    exact absurd (read.symm.trans ended) (by decide)

end Client

end TemplateTypes
