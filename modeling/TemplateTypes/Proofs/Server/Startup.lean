import TemplateTypes.Proofs.Server.Consulting

namespace TemplateTypes

open Text Message

def Progress.isDraining : Progress → Bool
  | .draining _ => true
  | _ => false

/-- What a call goes on with that starts the server first. -/
def Stage.after? : Stage → Option AfterStart
  | .startTurn a | .spawning a | .handshake _ a | .greeting a => some a
  | _ => none

namespace Client

def isLate (now : Int) (c : Client) (t : CallTask) : Bool :=
  t.deadline.any (· < now) && !c.isReady t

def isConnected (c : Client) : Bool :=
  c.processes.all (!·.input.isLost) && c.writes.all (!·.isLost)

/-- The reader goes on, and no request is answered with an error. -/
def hearsWell (c : Client) (now : Int) (e : Event) : Bool :=
  (e.process?.all fun process => (step now c e).1.isRead process == c.isRead process) &&
    c.pending.all fun p => p.outcome.isSome || (firstAnswer p.id (c.arrived e)).all (·.isOk)

/-- Calls only start the server. It can be spawned and stays alive and connected, it answers in time
    and with no error, and its reader goes on at all that it puts out. It may take long to make room
    for what is written to it. Timers run out for what is late. -/
def isAttended (now : Int) (c : Client) (e : Event) : Bool :=
  c.isConnected && !c.tasks.any (c.isLate now) && c.hearsWell now e && match e with
  | .begin _ what => (what matches .start)
  | .spawned _ failure => failure.isNone
  | .expired call => (c.task? call).all (c.isLate now)
  | .document _ _ | .output _ _ | .input _ _ | .readerResumed _ | .resume _ => true
  | .outputEnded _ | .exited _ | .cancelled _ => false

/-- What is written to the server's process besides its greeting, and the ends of calls. -/
inductive Follows (returns : Bool) : Effect → Prop
  | replies (id : Json) : Follows returns (.write 0 (reply id))
  | returns (call : Nat) (may : returns = true) : Follows returns (.finish call (.value .null))

/-- How far the start has come and whether it is done: one process, one request to it as its first
    message, one notification after its answer, and the ends of the calls once that is written. -/
inductive Traced (heard : List Json) : Bool → List Effect → Prop
  | nothing : Traced heard false []
  | spawning (call : Nat) : Traced heard false [.spawn call]
  | greeting (call id : Nat) (params : Json) (replies : List Effect)
    (follow : ∀ effect ∈ replies, Follows false effect) :
    Traced heard false
      (.spawn call :: .write 0 (Message.request id initializeMethod params) :: replies)
  | told (call id : Nat) (params result : Json) (replies more : List Effect) (done : Bool)
    (follow : ∀ effect ∈ replies, Follows false effect)
    (answered : firstAnswer id heard = some (.ok result))
    (goOn : ∀ effect ∈ more, Follows done effect) :
    Traced heard done (.spawn call :: .write 0 (Message.request id initializeMethod params) ::
      (replies ++ .write 0 Message.initialized :: more))

/-- The call can go on, is to be given a process, or waits for the server's answer, or its write
    waits for room or for a reader that can go on. -/
def IsOwed (c : Client) (heard : List Json) (t : CallTask) : Prop :=
  c.isReady t = true ∨ (∃ a, t.stage = .spawning a) ∨
    (∃ id a, t.stage = .handshake id a ∧ firstAnswer id heard = none) ∨
    c.isWriting (.call t.call) = true ∧
      ∃ w ∈ c.writes.head?, w.isCall = false ∨ w.progress.isDraining = true

def isTurn (c : Client) (e : Event) : Bool := e.begun?.isNone && c.moves e

def turnsTaken (c : Client) : List (Int × Event) → Nat
  | [] => 0
  | (now, e) :: more => (c.isTurn e).toNat + turnsTaken (step now c e).1 more

def returned (effects : List Effect) : List Nat := effects.filterMap Effect.returned?

def Alone (c : Client) (first : Option CallTask) : Prop :=
  (∀ t ∈ first, t ∈ c.tasks) ∧ ∀ t ∈ c.tasks, t ∈ first ∨ t.stage = .startTurn .finish

/-- Whether what the call writes waits for its turn yet. -/
def isQueued? (c : Client) (call : Nat) : Option Bool := (c.callWrite? call).map (·.2.2.2)

structure Bare (c : Client) : Prop where
  processes : c.processes = []
  flows : Flows c
  current : c.current = none
  unready : c.initialized = false

structure Serves (c : Client) (ready : Bool) : Prop where
  current : c.current = some 0
  alive : c.isAlive 0 = true
  ready : c.initialized = ready

/-- How far the start has come, and how often its call has gone on only to wait with what it
    writes. -/
inductive Underway (heard : List Json) : Nat → World → Prop
  | nothing {c : Client} (tasks : c.tasks = []) (bare : Bare c) (silent : heard = []) :
    Underway heard 0 (c, [])
  | spawning {c : Client} (call : Nat) (deadline : Option Int)
    (alone : c.Alone (some ⟨call, .spawning .finish, deadline⟩)) (bare : Bare c)
    (silent : heard = []) : Underway heard 0 (c, [.spawn call])
  | greeting {c : Client} (call id : Nat) (deadline : Option Int) (params : Json)
    (replies : List Effect) (alone : c.Alone (some ⟨call, .handshake id .finish, deadline⟩))
    (serves : Serves c false) (idle : c.isQueued? call = none)
    (told : c.outcome? id = firstAnswer id heard)
    (fine : ∀ fault, firstAnswer id heard ≠ some (.error fault))
    (follow : ∀ effect ∈ replies, Follows false effect) :
    Underway heard 0 (c, .spawn call ::
      .write 0 (Message.request id initializeMethod params) :: replies)
  | queueing {c : Client} (call id : Nat) (deadline : Option Int) (params result : Json)
    (replies : List Effect) (alone : c.Alone (some ⟨call, .greeting .finish, deadline⟩))
    (serves : Serves c false) (queued : c.isQueued? call = some true)
    (answered : firstAnswer id heard = some (.ok result))
    (follow : ∀ effect ∈ replies, Follows false effect) :
    Underway heard 1 (c, .spawn call ::
      .write 0 (Message.request id initializeMethod params) :: replies)
  | telling {c : Client} (call id : Nat) (deadline : Option Int) (params result : Json)
    (replies more : List Effect) (delays : Nat) (few : delays ≤ 2)
    (alone : c.Alone (some ⟨call, .greeting .finish, deadline⟩)) (serves : Serves c false)
    (begun : c.isQueued? call = some false) (answered : firstAnswer id heard = some (.ok result))
    (follow : ∀ effect ∈ replies, Follows false effect)
    (goOn : ∀ effect ∈ more, Follows false effect) :
    Underway heard delays (c, .spawn call :: .write 0 (Message.request id initializeMethod params)
      :: (replies ++ .write 0 Message.initialized :: more))
  | ready {c : Client} (call id : Nat) (params result : Json) (replies more : List Effect)
    (delays : Nat) (few : delays ≤ 2) (alone : c.Alone none) (serves : Serves c true)
    (answered : firstAnswer id heard = some (.ok result))
    (follow : ∀ effect ∈ replies, Follows false effect)
    (goOn : ∀ effect ∈ more, Follows true effect) :
    Underway heard delays (c, .spawn call :: .write 0 (Message.request id initializeMethod params)
      :: (replies ++ .write 0 Message.initialized :: more))

theorem Underway.traced {heard : List Json} {delays : Nat} {s : World}
    (underway : Underway heard delays s) : Traced heard s.1.initialized s.2 := by
  cases underway with
  | nothing tasks bare silent =>
    rw [bare.unready]
    exact .nothing
  | spawning call deadline alone bare silent =>
    rw [bare.unready]
    exact .spawning call
  | greeting call id deadline params replies alone serves idle told fine follow =>
    rw [serves.ready]
    exact .greeting call id params replies follow
  | queueing call id deadline params result replies alone serves queued answered follow =>
    rw [serves.ready]
    exact .greeting call id params replies follow
  | telling call id deadline params result replies more delays few alone serves begun answered
      follow goOn =>
    rw [serves.ready]
    exact .told call id params result replies more false follow answered goOn
  | ready call id params result replies more delays few alone serves answered follow goOn =>
    rw [serves.ready]
    exact .told call id params result replies more true follow answered goOn

theorem Underway.few {heard : List Json} {delays : Nat} {s : World}
    (underway : Underway heard delays s) : delays ≤ 2 := by
  cases underway <;> first | assumption | decide

section

variable {c d : Client} {now : Int} {e : Event} {call : Nat}

theorem still_of_attended (attended : isAttended now c e = true) (about : e.call? = none) :
    Still (c, []) (step now c e) := by
  cases step_moved now c e with
  | spawned accepted => cases e <;> first | cases accepted | cases about
  | died process gone =>
    rw [gone, isAttended, Bool.and_false] at attended
    cases attended
  | closing call refused closes => cases e <;> first | cases closes | cases about
  | still refused unclosed still => exact still

theorem hearsWell_of_attended (attended : isAttended now c e = true) :
    c.hearsWell now e = true := by
  simp only [isAttended, Bool.and_eq_true] at attended
  exact attended.1.2

theorem noticed_attended (attended : isAttended now c e = true) (about : e.call? = none)
    (lined : Lined c) (attentive : Attentive c) :
    (step now c e).1.initialized = c.initialized ∧
      (step now c e).1.pending = tell (firstAnswer · (c.arrived e)) c.pending := by
  cases noticed_step now lined about with
  | listens process own read listens =>
    cases listens.own with
    | waits p there reading waits initialized told => exact ⟨initialized, told⟩
    | ends ceased idle unready =>
      -- The reader was at it, since only who reads writes, and is not to end.
      have reading : c.isRead process = true := by
        rcases read with reads | ⟨writes, _⟩
        · exact reads
        · exact attentive.awake process writes
      obtain ⟨goesOn, _⟩ := Bool.and_eq_true_iff.mp (hearsWell_of_attended attended)
      rw [own, Option.all_some, ceased, reading] at goesOn
      cases goesOn
  | passes silent initialized pending held reads attends =>
    rw [silent]
    exact ⟨initialized, pending.trans (tell_unanswered fun _ _ => .inr rfl).symm⟩

theorem Bare.flows_step (bare : Bare c) (about : e.call? = none) : Flows (step now c e).1 := by
  cases fills : e.fills with
  | false => exact Client.flows_step now fills bare.flows
  | true =>
    cases e with
    | input process state =>
      have unknown : c.processes[process]? = none := by rw [bare.processes]; rfl
      have same : adjust process (fun p => { p with input := p.input.next state }) c = c := by
        unfold adjust
        rw [unknown]
      have stepped : step now c (.input process state) = (wake process state c, []) := by
        rw [← congrArg (wake process state) same]
        rfl
      rw [stepped]
      refine ⟨?_, bare.flows.room⟩
      rw [wake, bare.flows.free]
      rfl
    | _ => cases fills

theorem Heard.follows {arrived : List Json} {after : World} (heard : Heard arrived (c, []) after)
    (own : c.current = some 0) (returns : Bool) : ∀ effect ∈ after.2, Follows returns effect := by
  intro effect member
  obtain ⟨process, id, current, rfl⟩ := heard.replied member
  obtain rfl := Option.some.inj (own.symm.trans current)
  exact .replies id

theorem Heard.silent {arrived : List Json} {after : World} (heard : Heard arrived (c, []) after)
    (none : c.current = .none) : after.2 = [] := by
  rw [List.eq_nil_iff_forall_not_mem]
  intro effect member
  obtain ⟨process, id, current, _⟩ := heard.replied member
  rw [none] at current
  cases current

theorem Alone.congr {first : Option CallTask} (alone : c.Alone first) (same : d.tasks = c.tasks) :
    d.Alone first := by
  unfold Alone
  rw [same]
  exact alone

theorem isQueued?_of_some {w : Writer × Json × Option Int × Bool}
    (write : c.callWrite? call = some w) : c.isQueued? call = some w.2.2.2 := by
  rw [isQueued?, write]
  rfl

theorem isQueued?_congr (same : d.callWrite? call = c.callWrite? call) :
    d.isQueued? call = c.isQueued? call := congrArg _ same

theorem firstAnswer_mono {id : Nat} {heard : List Json} {outcome : Except Fault Json}
    (first : firstAnswer id heard = some outcome) (more : List Json) :
    firstAnswer id (heard ++ more) = some outcome := by
  rw [firstAnswer_append, first]
  rfl

theorem Bare.unheard (bare : Bare c) (lined : Lined c) (about : e.call? = none) :
    c.arrived e = [] := by
  by_contra heard
  obtain ⟨process, _, read⟩ := (noticed_step 0 lined about).source heard
  have known := lt_of_isRead read
  rw [bare.processes] at known
  cases known

theorem Underway.hears {heard : List Json} {delays : Nat} {s : World}
    (underway : Underway heard delays s) (booked : Booked s.1) (attentive : Attentive s.1)
    (attended : isAttended now s.1 e = true) (about : e.call? = none) :
    Underway (heard ++ s.1.arrived e) delays ((step now s.1 e).1, s.2 ++ (step now s.1 e).2) := by
  have reads := heard_step now booked.lined about
  have held := (noticed_step now booked.lined about).held
  have still := still_of_attended attended about
  obtain ⟨initialized, told⟩ := noticed_attended attended about booked.lined attentive
  have writes := fun call => isQueued?_congr (callWrite?_congr reads.calls call)
  have bare : Bare s.1 → Bare (step now s.1 e).1 := by
    intro bare
    refine ⟨?_, bare.flows_step about, held.current.trans bare.current,
      initialized.trans bare.unready⟩
    have length := congrArg List.length still.alive
    rw [length_aliveness, length_aliveness] at length
    exact List.eq_nil_of_length_eq_zero (length.trans (by rw [bare.processes]; rfl))
  have serves : ∀ {ready}, Serves s.1 ready → Serves (step now s.1 e).1 ready := fun serves =>
    ⟨held.current.trans serves.current, (isAlive_congr still.alive 0).trans serves.alive,
      initialized.trans serves.ready⟩
  cases underway with
  | nothing tasks none silent =>
    rw [none.unheard booked.lined about, reads.silent none.current, List.append_nil, List.append_nil]
    exact .nothing (reads.tasks.trans tasks) (bare none) silent
  | spawning call deadline alone none silent =>
    rw [none.unheard booked.lined about, reads.silent none.current, List.append_nil, List.append_nil]
    exact .spawning call deadline (alone.congr reads.tasks) (bare none) silent
  | @greeting c call id deadline params replies alone known idle settled fine follow =>
    have pending : id ∈ c.pending.map (·.id) := by
      rw [booked.entries]
      exact List.mem_filterMap.mpr ⟨_, alone.1 _ rfl, rfl⟩
    refine .greeting call id deadline params (replies ++ (step now c e).2)
      (alone.congr reads.tasks) (serves known) ((writes call).trans idle) ?_ ?_ ?_
    · rw [outcome?_of_tell pending told, settled, firstAnswer_append]
    · intro fault failed
      rw [firstAnswer_append] at failed
      rcases Option.or_eq_some_iff.mp failed with before | ⟨unsettled, new⟩
      · exact fine fault before
      · obtain ⟨p, member, same, own⟩ := mem_of_outcome? pending
        obtain ⟨_, answers⟩ := Bool.and_eq_true_iff.mp (hearsWell_of_attended attended)
        have well := List.all_eq_true.mp answers p member
        rw [own, settled, unsettled, same, new] at well
        cases well
    · exact List.forall_mem_append.mpr ⟨follow, reads.follows known.current false⟩
  | @queueing c call id deadline params result replies alone known queued answered follow =>
    exact .queueing call id deadline params result (replies ++ (step now c e).2)
      (alone.congr reads.tasks) (serves known) ((writes call).trans queued)
      (firstAnswer_mono answered _)
      (List.forall_mem_append.mpr ⟨follow, reads.follows known.current false⟩)
  | @telling c call id deadline params result replies more delays few alone known begun answered
      follow goOn =>
    rw [List.cons_append, List.cons_append, List.append_assoc, List.cons_append]
    exact .telling call id deadline params result replies _ delays few (alone.congr reads.tasks)
      (serves known) ((writes call).trans begun) (firstAnswer_mono answered _) follow
      (List.forall_mem_append.mpr ⟨goOn, reads.follows known.current false⟩)
  | @ready c call id params result replies more delays few alone known answered follow goOn =>
    rw [List.cons_append, List.cons_append, List.append_assoc, List.cons_append]
    exact .ready call id params result replies _ delays few (alone.congr reads.tasks)
      (serves known) (firstAnswer_mono answered _) follow
      (List.forall_mem_append.mpr ⟨goOn, reads.follows known.current true⟩)

/-- What remains of an event about a call, and whether the call goes on only to wait with what it
    writes. -/
inductive Goes (now : Int) (c : Client) (call : Nat) (e : Event) (after : World) : Nat → Prop
  | idle (unmoved : c.moves e = false) (same : after = (c, [])) : Goes now c call e after 0
  | queues (begins : e = .begin call .start) (turn : (c.enters e).startQueue.head? ≠ some call)
    (calm : Calm call (some ⟨call, .startTurn .finish, none⟩) c after.1)
    (pending : after.1.pending = c.pending) (effects : after.2 = []) : Goes now c call e after 0
  | spawns (turns : c.Turns call e .finish) (turn : (c.enters e).startQueue.head? = some call)
    (unready : (c.initialized && c.isRunning) = false)
    (calm : Calm call (some ⟨call, .spawning .finish, none⟩) c after.1)
    (effects : after.2 = [.spawn call]) : Goes now c call e after 0
  | starts (turns : c.Turns call e .finish) (turn : (c.enters e).startQueue.head? = some call)
    (ready : (c.initialized && c.isRunning) = true) (calm : Calm call none c after.1)
    (effects : after.2 = [.finish call (.value .null)]) : Goes now c call e after 0
  | greets (later : e.begun? = none) (deadline : Option Int)
    (there : c.task? call = some ⟨call, .spawning .finish, deadline⟩)
    (shifted : Shifted call (some ⟨call, .handshake (c.lastRequest + 1) .finish,
      some (now + c.setup.requestTimeout)⟩) c after.1) (idle : after.1.isQueued? call = none)
    (processes : after.1.processes = c.processes ++ [.fresh c.setup.nesting])
    (current : after.1.current = some c.processes.length)
    (initialized : after.1.initialized = c.initialized)
    (pending : after.1.pending = c.pending ++ [⟨c.lastRequest + 1, none⟩])
    (effects : after.2 = [.write c.processes.length (Message.request (c.lastRequest + 1)
      Message.initializeMethod (Message.initializeParams c.setup.processId c.setup.root))]) :
    Goes now c call e after 0
  | greeted (later : e.begun? = none) (request : Nat) (deadline : Option Int)
    (there : c.task? call = some ⟨call, .handshake request .finish, deadline⟩) (result : Json)
    (answered : c.outcome? request = some (.ok result)) (process : Nat)
    (own : c.current = some process) (shifted : Shifted call none c after.1)
    (processes : after.1.processes = c.processes) (current : after.1.current = c.current)
    (ready : after.1.initialized = true)
    (effects : after.2 = [.write process Message.initialized, .finish call (.value .null)]) :
    Goes now c call e after 0
  | tells (later : e.begun? = none) (request : Nat) (deadline : Option Int)
    (there : c.task? call = some ⟨call, .handshake request .finish, deadline⟩) (result : Json)
    (answered : c.outcome? request = some (.ok result))
    (calm : Calm call (some ⟨call, .greeting .finish, none⟩) c after.1) (queued : Bool)
    (write : after.1.isQueued? call = some queued)
    (hands : Hands c Message.initialized (!queued) after.2) : Goes now c call e after 1
  | writes (later : e.begun? = none) (deadline limit : Option Int)
    (there : c.task? call = some ⟨call, .greeting .finish, deadline⟩)
    (stays : Stays call (some ⟨call, .greeting .finish, limit⟩) c after.1)
    (queued : c.isQueued? call = some true) (write : after.1.isQueued? call = some false)
    (hands : Hands c Message.initialized true after.2) : Goes now c call e after 1
  | told (later : e.begun? = none) (deadline : Option Int)
    (there : c.task? call = some ⟨call, .greeting .finish, deadline⟩)
    (shifted : Shifted call none c after.1) (processes : after.1.processes = c.processes)
    (current : after.1.current = c.current) (ready : after.1.initialized = true) (queued : Bool)
    (write : c.isQueued? call = some queued) (new : List Effect)
    (hands : Hands c Message.initialized queued new)
    (effects : after.2 = new ++ [.finish call (.value .null)]) : Goes now c call e after 0

/-- Calls only start the server, and while one greets it the server can be told that it is done. -/
structure Plain (c : Client) : Prop where
  stages : ∀ t ∈ c.tasks, t.stage = .startTurn .finish ∨ t.stage = .spawning .finish ∨
    (∃ id, t.stage = .handshake id .finish) ∨ t.stage = .greeting .finish
  spawns : ∀ t ∈ c.tasks, t.stage = .spawning .finish → Flows c
  asks : ∀ t ∈ c.tasks, ∀ id a, t.stage = .handshake id a →
    c.isQueued? t.call = none ∧ ∀ fault, c.outcome? id ≠ some (.error fault)
  running : ∀ t ∈ c.tasks, t.stage.mayWrite = true → c.isRunning = true

theorem Plain.after? (plain : Plain c) {t : CallTask} (there : c.task? call = some t) :
    t.stage.after? = some .finish := by
  rcases plain.stages t (mem_of_task? there) with same | same | ⟨id, same⟩ | same <;>
    rw [same] <;> rfl

theorem Plain.starts (plain : Plain c) {t : CallTask} (there : c.task? call = some t) :
    t.stage.isHovering = false := by
  have after := plain.after? there
  cases stage : t.stage <;> first | rfl | (rw [stage] at after; cases after)

theorem isConnected_of_attended (attended : isAttended now c e = true) : c.isConnected = true := by
  simp only [isAttended, Bool.and_eq_true] at attended
  exact attended.1.1.1

theorem isReachable_of_isRunning (connected : c.isConnected = true) (running : c.isRunning = true) :
    c.isReachable = true := by
  obtain ⟨process, current, alive⟩ := (isRunning_iff c).mp running
  obtain ⟨kept, _⟩ := Bool.and_eq_true_iff.mp connected
  unfold isAlive at alive
  unfold isReachable Client.input
  rw [current, Option.any_some]
  cases there : c.processes[process]? with
  | none =>
    rw [there] at alive
    cases alive
  | some p =>
    rw [there, Option.any_some] at alive
    dsimp only
    rw [if_pos alive]
    have known := List.all_eq_true.mp kept p (List.mem_of_getElem? there)
    cases input : p.input <;> simp [input, Input.isLost] at known ⊢

theorem not_isSevered (connected : c.isConnected = true) (running : c.isRunning = true) :
    c.isSevered = false := by
  have kept := List.all_eq_true.mp (Bool.and_eq_true_iff.mp connected).2
  have unlost : c.writes.any Writing.isLost = false :=
    List.any_eq_false.mpr fun w member => by simpa using kept w member
  rw [isSevered, unlost, isReachable_of_isRunning connected running]
  rfl

theorem StartFailure.unattended (failure : StartFailure c call e) (booked : Booked c)
    (plain : Plain c) (configured : c.setup.command ≠ [])
    (attended : isAttended now c e = true) : False := by
  have connected := isConnected_of_attended attended
  cases failure with
  | unconfigured empty => exact configured empty
  | unspawned reason same => simp [isAttended, same] at attended
  | late same request a deadline there =>
    subst same
    simp only [isAttended, Bool.and_eq_true, Bool.not_eq_true'] at attended
    obtain ⟨⟨⟨_, punctual⟩, _⟩, late⟩ := attended
    rw [there, Option.all_some] at late
    rw [List.any_eq_true.mpr ⟨_, mem_of_task? there, late⟩] at punctual
    cases punctual
  | cancelled same => simp [isAttended, same] at attended
  | refused request a deadline fault there answered =>
    exact (plain.asks _ (mem_of_task? there) request a rfl).2 fault answered
  | unreachable request a deadline there unreachable =>
    have running := plain.running _ (mem_of_task? there) rfl
    cases unreachable.symm.trans (isReachable_of_isRunning connected running)
  | unwritten writing severed =>
    obtain ⟨t, member, _, may⟩ := booked.awaited call writing
    cases severed.symm.trans (not_isSevered connected (plain.running t member may))

theorem Turns.finish {a : AfterStart} (turns : c.Turns call e a) (plain : Plain c)
    (attended : isAttended now c e = true) : a = .finish := by
  rcases turns with rfl | ⟨deadline, there⟩
  · cases a with
    | finish => rfl
    | hover q => simp [isAttended, AfterStart.call] at attended
  · exact Option.some.inj (plain.after? there)

/-- What a call that tells the server so may be writing. -/
theorem Consulted.initialized (consulted : Consulted c) {a : AfterStart} {deadline : Option Int}
    (there : c.task? call = some ⟨call, .greeting a, deadline⟩) {payload : Json}
    {limit : Option Int} {queued : Bool}
    (write : c.callWrite? call = some (.call call, payload, limit, queued)) :
    payload = Message.initialized := by
  have told := consulted.told _ (mem_of_task? there)
  unfold Tells at told
  rw [write] at told
  exact Option.some.inj told

theorem Drags.goes {after : World} (drags : Drags c call e after) (slow : ¬ Flows c)
    (consulted : Consulted c) (plain : Plain c) (fresh : BeginsNew c e)
    (about : e.call? = some call) : Goes now c call e after 0 ∨ Goes now c call e after 1 := by
  have later := fun {t} => fresh.later (t := t) about
  cases drags with
  | greets a accepted deadline there =>
    refine absurd ?_ slow
    have own := mem_of_task? there
    rcases plain.stages _ own with same | same | ⟨id, same⟩ | same <;> cases same
    exact plain.spawns _ own rfl
  | tells a request deadline there idle result answered calm queue limit queued write hands =>
    obtain rfl : a = .finish := Option.some.inj (plain.after? there)
    exact .inr (.tells (later there) request deadline there result answered calm queued
      (isQueued?_of_some write) hands)
  | writes t there turn deadline stays queue payload limit queued before write hands =>
    have own := mem_of_task? there
    obtain ⟨number, stage, former⟩ := t
    obtain rfl : number = call := task?_call there
    have held : c.isQueued? number = some queued := isQueued?_of_some before
    rcases plain.stages _ own with same | same | ⟨id, same⟩ | same <;>
      obtain rfl : stage = _ := same
    · cases turn
    · exact absurd (plain.spawns _ own rfl) slow
    · cases held.symm.trans (plain.asks _ own id _ rfl).1
    · obtain rfl := consulted.initialized there before
      rcases write with ⟨_, _, _, same⟩ | ⟨rfl, write⟩
      · cases same
      · exact .inr (.writes (later there) former deadline there stays held
          (isQueued?_of_some write) hands)
  | greeted a deadline there shifted queue processes current ready payload limit queued before new
      hands effects =>
    obtain rfl : a = .finish := Option.some.inj (plain.after? there)
    obtain rfl := consulted.initialized there before
    exact .inl (.told (later there) deadline there shifted processes current ready queued
      (isQueued?_of_some before) new hands effects)
  | dwells t there hovering own dwells =>
    rw [plain.starts there] at hovering
    cases hovering

theorem Advance.goes {after : World} (advance : Advance now c call e after)
    (consulted : Consulted c) (plain : Plain c) (configured : c.setup.command ≠ [])
    (attended : isAttended now c e = true) (fresh : BeginsNew c e) (about : e.call? = some call) :
    Goes now c call e after 0 ∨ ¬ Flows c ∧ Goes now c call e after 1 := by
  have later := fun {t} => fresh.later (t := t) about
  cases advance with
  | idle unmoved same => exact .inl (.idle unmoved same)
  | queues a begins turn calm queue pending effects =>
    obtain rfl := Turns.finish (.inl begins) plain attended
    exact .inl (.queues begins turn calm pending effects)
  | spawns a turns turn unready calm queue effects =>
    obtain rfl := turns.finish plain attended
    exact .inl (.spawns turns turn unready calm effects)
  | starts a turns turn ready calm queue effects =>
    obtain rfl := turns.finish plain attended
    exact .inl (.starts turns turn ready calm effects)
  | greets a accepted deadline there shifted queue idle processes current initialized pending
      effects =>
    obtain rfl : a = .finish := Option.some.inj (plain.after? there)
    exact .inl (.greets (later there) deadline there shifted (congrArg _ idle) processes current
      initialized pending effects)
  | greeted a request deadline there idle result answered process own takes shifted queue processes
      current ready effects =>
    obtain rfl : a = .finish := Option.some.inj (plain.after? there)
    exact .inl (.greeted (later there) request deadline there result answered process own shifted
      processes current ready effects)
  | startFails outcome starting failure calm queue effects =>
    exact (failure.unattended consulted.booked plain configured attended).elim
  | opens q content deadline there => cases plain.starts there
  | closes request method uri deadline there => cases plain.starts there
  | hoverFails t there hovering =>
    rw [plain.starts there] at hovering
    cases hovering
  | drags slow drags =>
    exact (drags.goes slow consulted plain fresh about).imp_right fun goes => ⟨slow, goes⟩

theorem Alone.own {first : Option CallTask} (alone : c.Alone first) {t : CallTask}
    (member : t ∈ c.tasks) (moved : t.stage ≠ .startTurn .finish) : t ∈ first :=
  (alone.2 t member).resolve_right moved

theorem Alone.eq_of_task? {t u : CallTask} (alone : c.Alone (some t)) (there : c.task? call = some u)
    (moved : u.stage ≠ .startTurn .finish) : t = u :=
  Option.some.inj (alone.own (mem_of_task? there) moved)

theorem Alone.plain {t : CallTask} (alone : c.Alone (some t))
    (stages : t.stage = .spawning .finish ∨ (∃ id, t.stage = .handshake id .finish) ∨
      t.stage = .greeting .finish)
    (spawns : t.stage = .spawning .finish → Flows c)
    (asks : ∀ id a, t.stage = .handshake id a →
      c.isQueued? t.call = none ∧ ∀ fault, c.outcome? id ≠ some (.error fault))
    (running : t.stage.mayWrite = true → c.isRunning = true) : Plain c := by
  have own : ∀ u ∈ c.tasks, u.stage ≠ .startTurn .finish → u = t := fun u member moved =>
    (Option.some.inj (alone.own member moved)).symm
  refine ⟨fun u member => ?_, fun u member spawning => ?_, fun u member id a greets => ?_,
    fun u member may => ?_⟩
  · rcases alone.2 u member with mine | waits
    · exact .inr (Option.some.inj mine ▸ stages)
    · exact .inl waits
  · obtain rfl := own u member (by simp [spawning])
    exact spawns spawning
  · obtain rfl := own u member (by simp [greets])
    exact asks id a greets
  · obtain rfl := own u member fun waits => by rw [waits] at may; cases may
    exact running may

theorem plain_of_waiting (waiting : ∀ t ∈ c.tasks, t.stage = .startTurn .finish) : Plain c := by
  refine ⟨fun t member => .inl (waiting t member), fun t member same => ?_,
    fun t member id a same => ?_, fun t member may => ?_⟩
  · cases (waiting t member).symm.trans same
  · cases (waiting t member).symm.trans same
  · rw [waiting t member] at may
    cases may

theorem Alone.waiting (alone : c.Alone none) {t : CallTask} (member : t ∈ c.tasks) :
    t.stage = .startTurn .finish := (alone.2 t member).resolve_left (by simp)

theorem Serves.isRunning {ready : Bool} (serves : Serves c ready) : c.isRunning = true :=
  (isRunning_iff c).mpr ⟨0, serves.current, serves.alive⟩

theorem Underway.plain {heard : List Json} {delays : Nat} {s : World}
    (underway : Underway heard delays s) : Plain s.1 := by
  cases underway with
  | nothing tasks => exact plain_of_waiting (by simp [tasks])
  | spawning call deadline alone bare =>
    exact alone.plain (.inl rfl) (fun _ => bare.flows) (by simp) (by simp [Stage.mayWrite])
  | greeting call id deadline params replies alone serves idle told fine =>
    refine alone.plain (.inr (.inl ⟨id, rfl⟩)) (by simp) ?_ fun _ => serves.isRunning
    rintro _ _ ⟨⟩
    refine ⟨idle, fun fault failed => fine fault ?_⟩
    rw [← told, failed]
  | queueing call id deadline params result replies alone serves =>
    exact alone.plain (.inr (.inr rfl)) (by simp) (by simp) fun _ => serves.isRunning
  | telling call id deadline params result replies more delays few alone serves =>
    exact alone.plain (.inr (.inr rfl)) (by simp) (by simp) fun _ => serves.isRunning
  | ready call id params result replies more delays few alone =>
    exact plain_of_waiting fun t member => alone.waiting member

theorem Alone.queues {first : Option CallTask} (alone : c.Alone first)
    (absent : c.task? call = none)
    (remains : Remains call (some ⟨call, .startTurn .finish, none⟩) c d) : d.Alone first := by
  refine ⟨fun t own => ?_, fun t member => ?_⟩
  · exact (remains t).mpr (.inr ⟨alone.1 t own, task?_eq_none_iff.mp absent t (alone.1 t own)⟩)
  · rcases (remains t).mp member with new | ⟨old, _⟩
    · obtain rfl := Option.some.inj new
      exact .inr rfl
    · exact alone.2 t old

theorem Alone.shifts {first own : Option CallTask} (alone : c.Alone first)
    (gone : ∀ t ∈ first, t.call = call) (remains : Remains call own c d) : d.Alone own := by
  refine ⟨fun t mine => (remains t).mpr (.inl mine), fun t member => ?_⟩
  rcases (remains t).mp member with new | ⟨old, apart⟩
  · exact .inl new
  · exact .inr ((alone.2 t old).resolve_left fun first => apart (gone t first))

theorem absent_of_begin (fresh : BeginsNew c e) (begins : e = .begin call .start) :
    c.task? call = none := fresh call (by rw [begins]; rfl)

theorem Consulted.not_turns (consulted : Consulted c) {t : CallTask} (member : t ∈ c.tasks)
    (hasTurn : t.stage.hasTurn = true) (fresh : BeginsNew c e) (turns : c.Turns call e .finish)
    (turn : (c.enters e).startQueue.head? = some call) : False := by
  have first := head?_enters (e := e) (consulted.queued.turns t member hasTurn)
  obtain rfl := Option.some.inj (turn.symm.trans first)
  have there := task?_of_mem consulted.booked member
  rcases turns with begins | ⟨deadline, waits⟩
  · rw [absent_of_begin fresh begins] at there
    cases there
  · rw [Option.some.inj (there.symm.trans waits)] at hasTurn
    cases hasTurn

theorem Alone.not_turns {t : CallTask} (alone : c.Alone (some t)) (consulted : Consulted c)
    (hasTurn : t.stage.hasTurn = true) (fresh : BeginsNew c e) (turns : c.Turns call e .finish)
    (turn : (c.enters e).startQueue.head? = some call) : False :=
  consulted.not_turns (alone.1 t rfl) hasTurn fresh turns turn

theorem Bare.calm {own : Option CallTask} (bare : Bare c) (calm : Calm call own c d)
    (flowing : Flows c → Flows d) : Bare d :=
  ⟨calm.processes.trans bare.processes, flowing bare.flows, calm.current.trans bare.current,
    calm.initialized.trans bare.unready⟩

theorem Serves.moved {ready : Bool} (serves : Serves c ready) (current : d.current = c.current)
    (processes : d.processes = c.processes) {now : Bool} (initialized : d.initialized = now) :
    Serves d now :=
  ⟨current.trans serves.current, (isAlive_of_processes processes 0).trans serves.alive, initialized⟩

theorem Serves.calm {own : Option CallTask} {ready : Bool} (serves : Serves c ready)
    (calm : Calm call own c d) : Serves d ready :=
  serves.moved calm.current calm.processes (calm.initialized.trans serves.ready)

theorem Serves.hands {ready begins : Bool} (serves : Serves c ready) {payload : Json}
    {new : List Effect} (hands : Hands c payload begins new) :
    new = if begins then [.write 0 payload] else [] := by
  unfold Hands at hands
  cases begins with
  | false => exact hands
  | true =>
    obtain ⟨process, current, _, wrote⟩ := hands
    obtain rfl := Option.some.inj (current.symm.trans serves.current)
    exact wrote

theorem Follows.late {effect : Effect} (follows : Follows false effect) : Follows true effect := by
  cases follows with
  | replies id => exact .replies id
  | returns call may => cases may

/-- What an event about a call leaves to the others. -/
structure Proceeds (now : Int) (c : Client) (call : Nat) (e : Event) (after : World)
    (delay : Nat) : Prop where
  goes : Goes now c call e after delay
  others : ∀ other, other ≠ call → after.1.isQueued? other = c.isQueued? other
  flowing : Flows c → Flows after.1

theorem Proceeds.apart {after : World} {delay : Nat} (proceeds : Proceeds now c call e after delay)
    {t : CallTask} (member : t ∈ c.tasks) (absent : c.task? call = none) :
    after.1.isQueued? t.call = c.isQueued? t.call :=
  proceeds.others t.call (task?_eq_none_iff.mp absent t member)

section

variable {heard : List Json} {s after : World} {first delay : Nat} {effects : List Effect}

theorem Proceeds.from_nothing (proceeds : Proceeds now c call e after delay) (queued : Queued c)
    (tasks : c.tasks = []) (bare : Bare c) (silent : heard = []) :
    Underway heard delay after := by
  have absent : ∀ {t}, c.task? call ≠ some t := by
    intro t there
    have member := mem_of_task? there
    rw [tasks] at member
    cases member
  cases proceeds.goes with
  | idle unmoved same =>
    subst same
    exact .nothing tasks bare silent
  | queues begins turn calm pending same =>
    have empty : c.startQueue = [] := by
      rw [List.eq_nil_iff_forall_not_mem]
      intro other member
      obtain ⟨t, there, _⟩ := queued.known other member
      rw [tasks] at there
      cases there
    refine absurd ?_ turn
    simp [enters, empty, begins, Event.begun?]
  | spawns turns turn unready calm same =>
    have alone : c.Alone none := ⟨by simp, by simp [tasks]⟩
    have after' : after = (after.1, [.spawn call]) := by rw [← same]
    rw [after']
    exact .spawning call none (alone.shifts forall_mem_no_task calm.toShifted.remains)
      (bare.calm calm proceeds.flowing) silent
  | starts turns turn ready calm same => simp [bare.unready] at ready
  | greets later deadline there => exact absurd there absent
  | greeted later request deadline there => exact absurd there absent
  | tells later request deadline there => exact absurd there absent
  | writes later deadline limit there => exact absurd there absent
  | told later deadline there => exact absurd there absent

theorem Proceeds.from_spawning (proceeds : Proceeds now c call e after delay)
    (consulted : Consulted c) (fresh : BeginsNew c e) {deadline : Option Int}
    (alone : c.Alone (some ⟨first, .spawning .finish, deadline⟩)) (bare : Bare c)
    (silent : heard = []) : Underway heard delay (after.1, [.spawn first] ++ after.2) := by
  cases proceeds.goes with
  | idle unmoved same =>
    subst same
    exact .spawning first deadline alone bare silent
  | queues begins turn calm pending same =>
    rw [same]
    exact .spawning first deadline
      (alone.queues (absent_of_begin fresh begins) calm.toShifted.remains)
      (bare.calm calm proceeds.flowing) silent
  | spawns turns turn => exact (alone.not_turns consulted rfl fresh turns turn).elim
  | starts turns turn => exact (alone.not_turns consulted rfl fresh turns turn).elim
  | greets later limit there shifted idle processes current initialized pending same =>
    obtain ⟨rfl, _, rfl⟩ := CallTask.mk.inj (alone.eq_of_task? there (by simp))
    have zero : c.processes.length = 0 := by rw [bare.processes]; rfl
    rw [zero] at current same
    have whole : [.spawn first] ++ after.2 = .spawn first :: .write 0 (Message.request
        (c.lastRequest + 1) initializeMethod
          (initializeParams c.setup.processId c.setup.root)) :: [] := by rw [same]; rfl
    rw [whole]
    refine .greeting first (c.lastRequest + 1) _ _ [] (alone.shifts (by simp) shifted.remains)
      ⟨current, ?_, initialized.trans bare.unready⟩ idle ?_ ?_ (by simp)
    · simp [isAlive, processes, bare.processes, ServerProcess.fresh]
    · unfold outcome?
      rw [pending, List.find?_append, find?_unused consulted.booked (Nat.lt_succ_self _), silent]
      simp [firstAnswer]
    · simp [silent, firstAnswer]
  | greeted later request limit there => cases alone.eq_of_task? there (by simp)
  | tells later request limit there => cases alone.eq_of_task? there (by simp)
  | writes later deadline limit there => cases alone.eq_of_task? there (by simp)
  | told later deadline there => cases alone.eq_of_task? there (by simp)

theorem Proceeds.from_greeting (proceeds : Proceeds now c call e after delay)
    (consulted : Consulted c) (fresh : BeginsNew c e) {id : Nat} {deadline : Option Int}
    {params : Json} {replies : List Effect}
    (alone : c.Alone (some ⟨first, .handshake id .finish, deadline⟩)) (serves : Serves c false)
    (idle : c.isQueued? first = none) (told : c.outcome? id = firstAnswer id heard)
    (fine : ∀ fault, firstAnswer id heard ≠ some (.error fault))
    (follow : ∀ effect ∈ replies, Follows false effect) :
    Underway heard delay (after.1, (.spawn first ::
      .write 0 (Message.request id initializeMethod params) :: replies) ++ after.2) := by
  cases proceeds.goes with
  | idle unmoved same =>
    subst same
    rw [List.append_nil]
    exact .greeting first id deadline params replies alone serves idle told fine follow
  | queues begins turn calm pending same =>
    have absent := absent_of_begin fresh begins
    rw [same, List.append_nil]
    refine .greeting first id deadline params replies
      (alone.queues absent calm.toShifted.remains) (serves.calm calm)
      ((proceeds.apart (alone.1 _ rfl) absent).trans idle) ?_ fine follow
    unfold outcome?
    rw [pending]
    exact told
  | spawns turns turn => exact (alone.not_turns consulted rfl fresh turns turn).elim
  | starts turns turn => exact (alone.not_turns consulted rfl fresh turns turn).elim
  | greets later limit there => cases alone.eq_of_task? there (by simp)
  | greeted later request limit there result answered process known shifted processes current ready
      same =>
    obtain ⟨rfl, stage, rfl⟩ := CallTask.mk.inj (alone.eq_of_task? there (by simp))
    obtain ⟨rfl, _⟩ := Stage.handshake.inj stage
    obtain rfl := Option.some.inj (known.symm.trans serves.current)
    rw [same, List.cons_append, List.cons_append]
    exact .ready first id params result replies _ 0 (by decide)
      (alone.shifts (by simp) shifted.remains) (serves.moved current processes ready)
      (told.symm.trans answered) follow (by simp [Follows.returns])
  | tells later request limit there result answered calm queued write hands =>
    obtain ⟨rfl, stage, rfl⟩ := CallTask.mk.inj (alone.eq_of_task? there (by simp))
    obtain ⟨rfl, _⟩ := Stage.handshake.inj stage
    have alone := alone.shifts (by simp) calm.toShifted.remains
    rw [serves.hands hands]
    cases queued with
    | true =>
      rw [Bool.not_true, if_neg Bool.false_ne_true, List.append_nil]
      exact .queueing first id none params result replies alone (serves.calm calm) write
        (told.symm.trans answered) follow
    | false =>
      rw [Bool.not_false, if_pos rfl, List.cons_append, List.cons_append]
      exact .telling first id none params result replies [] 1 (by decide) alone (serves.calm calm)
        write (told.symm.trans answered) follow (by simp)
  | writes later deadline limit there => cases alone.eq_of_task? there (by simp)
  | told later deadline there => cases alone.eq_of_task? there (by simp)

theorem Proceeds.from_queueing (proceeds : Proceeds now c call e after delay)
    (consulted : Consulted c) (fresh : BeginsNew c e) {id : Nat} {deadline : Option Int}
    {params result : Json} {replies : List Effect}
    (alone : c.Alone (some ⟨first, .greeting .finish, deadline⟩)) (serves : Serves c false)
    (queued : c.isQueued? first = some true) (answered : firstAnswer id heard = some (.ok result))
    (follow : ∀ effect ∈ replies, Follows false effect) :
    Underway heard (1 + delay) (after.1, (.spawn first ::
      .write 0 (Message.request id initializeMethod params) :: replies) ++ after.2) := by
  cases proceeds.goes with
  | idle unmoved same =>
    subst same
    rw [List.append_nil]
    exact .queueing first id deadline params result replies alone serves queued answered follow
  | queues begins turn calm pending same =>
    have absent := absent_of_begin fresh begins
    rw [same, List.append_nil]
    exact .queueing first id deadline params result replies
      (alone.queues absent calm.toShifted.remains) (serves.calm calm)
      ((proceeds.apart (alone.1 _ rfl) absent).trans queued) answered follow
  | spawns turns turn => exact (alone.not_turns consulted rfl fresh turns turn).elim
  | starts turns turn => exact (alone.not_turns consulted rfl fresh turns turn).elim
  | greets later limit there => cases alone.eq_of_task? there (by simp)
  | greeted later request limit there => cases alone.eq_of_task? there (by simp)
  | tells later request limit there => cases alone.eq_of_task? there (by simp)
  | writes later former limit there stays known write hands =>
    obtain ⟨rfl, _, rfl⟩ := CallTask.mk.inj (alone.eq_of_task? there (by simp))
    rw [serves.hands hands, if_pos rfl, List.cons_append, List.cons_append]
    exact .telling first id limit params result replies [] 2 (by decide)
      (alone.shifts (by simp) stays.remains)
      (serves.moved stays.current stays.processes (stays.initialized.trans serves.ready)) write
      answered follow (by simp)
  | told later former there shifted processes current ready begins write new hands same =>
    obtain ⟨rfl, _, rfl⟩ := CallTask.mk.inj (alone.eq_of_task? there (by simp))
    obtain rfl := Option.some.inj (write.symm.trans queued)
    rw [same, serves.hands hands, if_pos rfl, List.cons_append, List.cons_append]
    exact .ready first id params result replies _ 1 (by decide)
      (alone.shifts (by simp) shifted.remains) (serves.moved current processes ready) answered
      follow (by simp [Follows.returns])

theorem Proceeds.from_telling (proceeds : Proceeds now c call e after delay)
    (consulted : Consulted c) (fresh : BeginsNew c e) {id delays : Nat} (few : delays ≤ 2)
    {deadline : Option Int} {params result : Json} {replies more : List Effect}
    (alone : c.Alone (some ⟨first, .greeting .finish, deadline⟩)) (serves : Serves c false)
    (begun : c.isQueued? first = some false) (answered : firstAnswer id heard = some (.ok result))
    (follow : ∀ effect ∈ replies, Follows false effect)
    (goOn : ∀ effect ∈ more, Follows false effect) :
    Underway heard (delays + delay) (after.1, (.spawn first ::
      .write 0 (Message.request id initializeMethod params) ::
        (replies ++ .write 0 Message.initialized :: more)) ++ after.2) := by
  cases proceeds.goes with
  | idle unmoved same =>
    subst same
    rw [List.append_nil]
    exact .telling first id deadline params result replies more delays few alone serves begun
      answered follow goOn
  | queues begins turn calm pending same =>
    have absent := absent_of_begin fresh begins
    rw [same, List.append_nil]
    exact .telling first id deadline params result replies more delays few
      (alone.queues absent calm.toShifted.remains) (serves.calm calm)
      ((proceeds.apart (alone.1 _ rfl) absent).trans begun) answered follow goOn
  | spawns turns turn => exact (alone.not_turns consulted rfl fresh turns turn).elim
  | starts turns turn => exact (alone.not_turns consulted rfl fresh turns turn).elim
  | greets later limit there => cases alone.eq_of_task? there (by simp)
  | greeted later request limit there => cases alone.eq_of_task? there (by simp)
  | tells later request limit there => cases alone.eq_of_task? there (by simp)
  | writes later former limit there stays queued =>
    obtain ⟨rfl, _, rfl⟩ := CallTask.mk.inj (alone.eq_of_task? there (by simp))
    cases queued.symm.trans begun
  | told later former there shifted processes current ready queued write new hands same =>
    obtain ⟨rfl, _, rfl⟩ := CallTask.mk.inj (alone.eq_of_task? there (by simp))
    obtain rfl := Option.some.inj (write.symm.trans begun)
    rw [same, serves.hands hands, if_neg Bool.false_ne_true, List.nil_append, List.cons_append,
      List.cons_append, List.append_assoc, List.cons_append]
    refine .ready first id params result replies _ delays few
      (alone.shifts (by simp) shifted.remains) (serves.moved current processes ready) answered
      follow (List.forall_mem_append.mpr ⟨fun effect member => (goOn effect member).late, ?_⟩)
    simp [Follows.returns]

theorem Proceeds.from_ready (proceeds : Proceeds now c call e after delay) (fresh : BeginsNew c e)
    {id delays : Nat} (few : delays ≤ 2) {params result : Json} {replies more : List Effect}
    (alone : c.Alone none) (serves : Serves c true)
    (answered : firstAnswer id heard = some (.ok result))
    (follow : ∀ effect ∈ replies, Follows false effect)
    (goOn : ∀ effect ∈ more, Follows true effect) :
    Underway heard (delays + delay) (after.1, (.spawn first ::
      .write 0 (Message.request id initializeMethod params) ::
        (replies ++ .write 0 Message.initialized :: more)) ++ after.2) := by
  have stays : ∀ {own}, Calm call own c after.1 → after.1.Alone none →
      (∀ effect ∈ after.2, Follows true effect) → Underway heard delays
        (after.1, (.spawn first :: .write 0 (Message.request id initializeMethod params) ::
          (replies ++ .write 0 Message.initialized :: more)) ++ after.2) := by
    intro own calm alone' later
    rw [List.cons_append, List.cons_append, List.append_assoc, List.cons_append]
    exact .ready first id params result replies _ delays few alone' (serves.calm calm) answered
      follow (List.forall_mem_append.mpr ⟨goOn, later⟩)
  have waiting : ∀ {t}, c.task? call = some t → t.stage = .startTurn .finish :=
    fun there => alone.waiting (mem_of_task? there)
  cases proceeds.goes with
  | idle unmoved same =>
    subst same
    rw [List.append_nil]
    exact .ready first id params result replies more delays few alone serves answered follow goOn
  | queues begins turn calm pending same =>
    refine stays calm (alone.queues (absent_of_begin fresh begins) calm.toShifted.remains) ?_
    simp [same]
  | spawns turns turn unready => simp [serves.ready, serves.isRunning] at unready
  | starts turns turn ready calm same =>
    refine stays calm (alone.shifts forall_mem_no_task calm.toShifted.remains) ?_
    simp [same, Follows.returns]
  | greets later limit there => cases waiting there
  | greeted later request limit there => cases waiting there
  | tells later request limit there => cases waiting there
  | writes later deadline limit there => cases waiting there
  | told later deadline there => cases waiting there

end

theorem Underway.goesOn {heard : List Json} {delays delay : Nat} {s after : World}
    (underway : Underway heard delays s) (consulted : Consulted s.1) (fresh : BeginsNew s.1 e)
    (proceeds : Proceeds now s.1 call e after delay) :
    Underway heard (delays + delay) (after.1, s.2 ++ after.2) := by
  cases underway with
  | nothing tasks bare silent =>
    rw [Nat.zero_add]
    exact proceeds.from_nothing consulted.queued tasks bare silent
  | spawning first deadline alone bare silent =>
    rw [Nat.zero_add]
    exact proceeds.from_spawning consulted fresh alone bare silent
  | greeting first id deadline params replies alone serves idle told fine follow =>
    rw [Nat.zero_add]
    exact proceeds.from_greeting consulted fresh alone serves idle told fine follow
  | queueing first id deadline params result replies alone serves queued answered follow =>
    exact proceeds.from_queueing consulted fresh alone serves queued answered follow
  | telling first id deadline params result replies more delays few alone serves begun answered
      follow goOn =>
    exact proceeds.from_telling consulted fresh few alone serves begun answered follow goOn
  | ready first id params result replies more delays few alone serves answered follow goOn =>
    exact proceeds.from_ready fresh few alone serves answered follow goOn

theorem Underway.begins {heard : List Json} {delays : Nat} {s : World}
    (underway : Underway heard delays s) (consulted : Consulted s.1) (fresh : BeginsNew s.1 e)
    (turns : s.1.Turns call e .finish) (turn : (s.1.enters e).startQueue.head? = some call)
    (unready : (s.1.initialized && s.1.isRunning) = false) : e = .begin call .start := by
  -- One that waits comes to its turn only after the first one, and then the server is ready.
  refine turns.resolve_right fun ⟨deadline, there⟩ => ?_
  have member := mem_of_task? there
  cases underway with
  | nothing tasks bare silent =>
    rw [tasks] at member
    cases member
  | spawning first deadline alone =>
    exact alone.not_turns consulted rfl fresh turns turn
  | greeting first id deadline params replies alone =>
    exact alone.not_turns consulted rfl fresh turns turn
  | queueing first id deadline params result replies alone =>
    exact alone.not_turns consulted rfl fresh turns turn
  | telling first id deadline params result replies more delays few alone =>
    exact alone.not_turns consulted rfl fresh turns turn
  | ready first id params result replies more delays few alone serves =>
    simp [serves.ready, serves.isRunning] at unready

/-- Who has the first write can go on with it, or it waits for room. -/
theorem isOwed_of_writing {heard : List Json} {t : CallTask}
    (writing : c.isWriting (.call t.call) = true)
    (own : ∀ other, c.isWriting (.call other) = true → other = t.call) : c.IsOwed heard t := by
  cases writes : c.writes with
  | nil =>
    rw [isWriting, writes] at writing
    cases writing
  | cons w more =>
    have head : w ∈ c.writes.head? := by rw [writes]; rfl
    by_cases waits : w.isCall = false ∨ w.progress.isDraining = true
    · exact .inr (.inr (.inr ⟨writing, w, head, waits⟩))
    · obtain ⟨writer, payload, limit, progress⟩ := w
      obtain ⟨mine, moves⟩ := not_or.mp waits
      left
      unfold isReady canWrite
      rw [writing, if_pos rfl, writes]
      cases writer with
      | reader process => exact absurd rfl mine
      | call other =>
        obtain rfl := own other (by simp [isWriting, writes])
        cases progress with
        | draining process => exact absurd rfl moves
        | queued => exact beq_self_eq_true _
        | drained lost => exact beq_self_eq_true _

theorem Alone.isOwed {heard : List Json} {t : CallTask} (alone : c.Alone (some t))
    (booked : Booked c) {queued : Bool} (write : c.isQueued? t.call = some queued) :
    c.IsOwed heard t := by
  refine isOwed_of_writing ?_ fun other writes => ?_
  · cases writing : c.isWriting (.call t.call) with
    | true => rfl
    | false =>
      rw [isQueued?, callWrite?_eq_none_iff.mpr writing] at write
      cases write
  · obtain ⟨u, member, same, may⟩ := booked.awaited other writes
    have mine := alone.own member fun waits => by rw [waits] at may; cases may
    rw [← same, Option.some.inj mine]

theorem Underway.owes {heard : List Json} {delays : Nat} {s : World}
    (underway : Underway heard delays s) (consulted : Consulted s.1) (waits : s.1.tasks ≠ []) :
    ∃ t ∈ s.1.tasks, s.1.IsOwed heard t := by
  have booked := consulted.booked
  cases underway with
  | nothing tasks => exact absurd tasks waits
  | spawning call deadline alone =>
    exact ⟨_, alone.1 _ rfl, .inr (.inl ⟨_, rfl⟩)⟩
  | @greeting c call id deadline params replies alone serves idle told =>
    refine ⟨_, alone.1 _ rfl, ?_⟩
    cases answered : firstAnswer id heard with
    | none => exact .inr (.inr (.inl ⟨id, _, rfl, answered⟩))
    | some outcome =>
      have silent : c.isWriting (.call call) = false :=
        callWrite?_eq_none_iff.mp (Option.map_eq_none_iff.mp idle)
      left
      unfold isReady
      dsimp only
      rw [silent, if_neg Bool.false_ne_true, told, answered]
      rfl
  | queueing call id deadline params result replies alone serves queued =>
    exact ⟨_, alone.1 _ rfl, alone.isOwed booked queued⟩
  | telling call id deadline params result replies more delays few alone serves begun =>
    exact ⟨_, alone.1 _ rfl, alone.isOwed booked begun⟩
  | @ready c call id params result replies more delays few alone =>
    -- The first in the queue is the one that can go on, and it is a call under way.
    obtain ⟨t, member⟩ := List.exists_mem_of_ne_nil c.tasks waits
    have entered := consulted.queued.waits t member (by rw [alone.waiting member]; rfl)
    obtain ⟨first, head⟩ := Option.isSome_iff_exists.mp
      (List.isSome_head?.mpr (List.ne_nil_of_mem entered))
    obtain ⟨u, there, same, _⟩ := consulted.queued.known first (List.mem_of_head? head)
    have silent := booked.idle (task?_of_mem booked there) (by rw [alone.waiting there]; rfl)
    refine ⟨u, there, .inl ?_⟩
    unfold isReady
    rw [silent, if_neg Bool.false_ne_true, alone.waiting there]
    dsimp only
    rw [head, same, beq_self_eq_true]

theorem returned_append (earlier later : List Effect) :
    returned (earlier ++ later) = returned earlier ++ returned later := List.filterMap_append

theorem Heard.no_return {arrived : List Json} {after : World}
    (heard : Heard arrived (c, []) after) : returned after.2 = [] := by
  unfold returned
  rw [List.filterMap_eq_nil_iff]
  intro effect member
  obtain ⟨process, id, _, rfl⟩ := heard.replied member
  rfl

theorem Hands.no_return {payload : Json} {begins : Bool} {new : List Effect}
    (hands : Hands c payload begins new) : returned new = [] := by
  unfold Hands at hands
  cases begins with
  | false =>
    obtain rfl : new = [] := hands
    rfl
  | true =>
    obtain ⟨process, _, _, rfl⟩ := hands
    rfl

theorem calls_perm (booked : Booked c) (fresh : BeginsNew c e) (about : e.call? = some call)
    (known : e.begun? = some call ∨ ∃ t, c.task? call = some t) :
    ((withoutTask call c).tasks.map (·.call) ++ [call]).Perm
      (c.tasks.map (·.call) ++ e.begun?.toList) := by
  rcases known with begins | ⟨t, there⟩
  · rw [withoutTask_of_none (fresh call begins), begins]
    rfl
  · have member : call ∈ c.tasks.map (·.call) :=
      List.mem_map.mpr ⟨t, mem_of_task? there, task?_call there⟩
    have others : (withoutTask call c).tasks.map (·.call) = (c.tasks.map (·.call)).erase call := by
      rw [List.Nodup.erase_eq_filter booked.distinct, List.filter_map]
      rfl
    rw [others, fresh.later about there, Option.toList_none, List.append_nil]
    exact (List.perm_append_singleton _ _).trans (List.perm_cons_erase member).symm

/-- The calls that remain are known by the calls they were. -/
theorem Remains.perm {own : Option CallTask} (remains : Remains call own c d)
    (mine : ∀ t ∈ own, t.call = call) (before : Booked c) (after : Booked d) :
    (d.tasks.map (·.call)).Perm
      ((withoutTask call c).tasks.map (·.call) ++ own.toList.map (·.call)) := by
  rw [← List.map_append]
  refine List.Perm.map _ ((List.perm_ext_iff_of_nodup after.distinct.of_map ?_).mpr fun t => ?_)
  · refine List.nodup_append.mpr ⟨before.distinct.of_map.filter _, ?_, ?_⟩
    · cases own <;> simp
    · rintro t old _ new rfl
      exact (mem_withoutTask.mp old).2 (mine t (Option.mem_toList.mp new))
  · rw [remains t, List.mem_append, mem_withoutTask, Option.mem_toList]
    exact or_comm

theorem Goes.returns {delay : Nat} {after : World} (goes : Goes now c call e after delay) :
    after = (c, []) ∧ e.begun? = none ∨
      (e.begun? = some call ∨ ∃ t, c.task? call = some t) ∧ after.1.setup = c.setup ∧
        ∃ own, Remains call own c after.1 ∧ (∀ t ∈ own, t.call = call) ∧
          own.toList.map (·.call) ++ returned after.2 = [call] := by
  have turning : c.Turns call e .finish → e.begun? = some call ∨ ∃ t, c.task? call = some t := by
    rintro (begins | ⟨deadline, there⟩)
    · exact .inl (by rw [begins]; rfl)
    · exact .inr ⟨_, there⟩
  have goesOn : ∀ {own : CallTask}, own.call = call → Remains call (some own) c after.1 →
      returned after.2 = [] → ∃ own, Remains call own c after.1 ∧ (∀ t ∈ own, t.call = call) ∧
        own.toList.map (·.call) ++ returned after.2 = [call] := by
    rintro own rfl remains silent
    refine ⟨_, remains, ?_, by rw [silent]; rfl⟩
    rintro t ⟨⟩
    rfl
  have ends : Remains call none c after.1 → returned after.2 = [call] →
      ∃ own, Remains call own c after.1 ∧ (∀ t ∈ own, t.call = call) ∧
        own.toList.map (·.call) ++ returned after.2 = [call] :=
    fun remains once => ⟨none, remains, forall_mem_no_task, once⟩
  cases goes with
  | idle unmoved same =>
    refine .inl ⟨same, ?_⟩
    cases e <;> first | rfl | cases unmoved
  | queues begins turn calm pending effects =>
    exact .inr ⟨turning (.inl begins), calm.setup, goesOn rfl calm.toShifted.remains
      (by rw [effects]; rfl)⟩
  | spawns turns turn unready calm effects =>
    exact .inr ⟨turning turns, calm.setup, goesOn rfl calm.toShifted.remains (by rw [effects]; rfl)⟩
  | starts turns turn ready calm effects =>
    exact .inr ⟨turning turns, calm.setup, ends calm.toShifted.remains (by rw [effects]; rfl)⟩
  | greets later deadline there shifted idle processes current initialized pending effects =>
    exact .inr ⟨.inr ⟨_, there⟩, shifted.setup, goesOn rfl shifted.remains (by rw [effects]; rfl)⟩
  | greeted later request deadline there result answered process own shifted processes current
      ready effects =>
    exact .inr ⟨.inr ⟨_, there⟩, shifted.setup, ends shifted.remains (by rw [effects]; rfl)⟩
  | tells later request deadline there result answered calm queued write hands =>
    exact .inr ⟨.inr ⟨_, there⟩, calm.setup, goesOn rfl calm.toShifted.remains hands.no_return⟩
  | writes later deadline limit there stays queued write hands =>
    exact .inr ⟨.inr ⟨_, there⟩, stays.setup, goesOn rfl stays.remains hands.no_return⟩
  | told later deadline there shifted processes current ready queued write new hands effects =>
    refine .inr ⟨.inr ⟨_, there⟩, shifted.setup, ends shifted.remains ?_⟩
    rw [effects, returned_append, hands.no_return]
    rfl

theorem Goes.accounts {delay : Nat} {after : World} (goes : Goes now c call e after delay)
    (booked : Booked c) (next : Booked after.1) (fresh : BeginsNew c e)
    (about : e.call? = some call) :
    (after.1.tasks.map (·.call) ++ returned after.2).Perm
      (c.tasks.map (·.call) ++ e.begun?.toList) := by
  rcases goes.returns with ⟨same, later⟩ | ⟨known, _, own, remains, mine, once⟩
  · rw [same, later]
    rfl
  · refine (List.Perm.append_right _ (remains.perm mine booked next)).trans ?_
    rw [List.append_assoc, once]
    exact calls_perm booked fresh about known

theorem Underway.current_of_spawning {heard : List Json} {delays : Nat} {s : World}
    (underway : Underway heard delays s) {t : CallTask} (member : t ∈ s.1.tasks)
    (spawning : t.stage = .spawning .finish) : s.1.current = none := by
  have first := fun {own} (alone : s.1.Alone own) => alone.own member (by simp [spawning])
  cases underway with
  | nothing tasks bare silent => exact bare.current
  | spawning call deadline alone bare silent => exact bare.current
  | greeting call id deadline params replies alone =>
    rw [← Option.some.inj (first alone)] at spawning
    cases spawning
  | queueing call id deadline params result replies alone =>
    rw [← Option.some.inj (first alone)] at spawning
    cases spawning
  | telling call id deadline params result replies more delays few alone =>
    rw [← Option.some.inj (first alone)] at spawning
    cases spawning
  | ready call id params result replies more delays few alone => cases first alone

theorem Underway.paces {heard : List Json} {delays delay : Nat} {s after : World}
    (underway : Underway heard delays s) (consulted : Consulted s.1) (fresh : BeginsNew s.1 e)
    (goes : Goes now s.1 call e after delay) :
    (s.1.isTurn e).toNat + s.1.current.toList.length ≤
      (returned after.2).length + after.1.current.toList.length + delay := by
  -- Whoever goes on returns, but for the call that gets the process, of which there is one, and
  -- for one that has to wait with what it writes.
  have once : (s.1.isTurn e).toNat ≤ 1 := Bool.toNat_le _
  have begun : e = .begin call .start → (s.1.isTurn e).toNat = 0 := by
    rintro rfl
    rfl
  cases goes with
  | idle unmoved same =>
    have still : s.1.isTurn e = false := by rw [isTurn, unmoved, Bool.and_false]
    rw [same, still]
    exact Nat.le_of_eq rfl
  | queues begins turn calm pending effects =>
    rw [begun begins, calm.current, effects]
    exact Nat.le_of_eq rfl
  | spawns turns turn unready calm effects =>
    rw [begun (underway.begins consulted fresh turns turn unready), calm.current, effects]
    exact Nat.le_of_eq rfl
  | starts turns turn ready calm effects =>
    have length : (returned after.2).length = 1 := by rw [effects]; rfl
    rw [calm.current, length]
    omega
  | greets later deadline there shifted idle processes current initialized pending effects =>
    rw [underway.current_of_spawning (mem_of_task? there) rfl, current]
    exact Nat.le_trans once (Nat.le_add_left _ _)
  | greeted later request deadline there result answered process own shifted processes current
      ready effects =>
    have length : (returned after.2).length = 1 := by rw [effects]; rfl
    rw [current, length]
    omega
  | tells later request deadline there result answered calm =>
    rw [calm.current]
    omega
  | writes later deadline limit there stays =>
    rw [stays.current]
    omega
  | told later deadline there shifted processes current ready queued write new hands effects =>
    have length : (returned after.2).length = 1 := by
      rw [effects, returned_append, hands.no_return]
      rfl
    rw [current, length]
    omega

/-- A client at which the calls that have begun so far only start a server that is attended. -/
structure Starting (heard : List Json) (begun : List Nat) (turns : Nat) (filled : Bool)
    (delays : Nat) (s : World) : Prop where
  configured : s.1.setup.command ≠ []
  consulted : Consulted s.1
  attentive : Attentive s.1
  underway : Underway heard delays s
  accounted : (s.1.tasks.map (·.call) ++ returned s.2).Perm begun
  paced : turns ≤ (returned s.2).length + s.1.current.toList.length + delays
  swift : filled = false → Flows s.1 ∧ delays = 0

theorem isConsulting_of_isAttended (attended : isAttended now c e = true) :
    e.isConsulting = true := by
  cases e with
  | begin call what =>
    cases what <;> first | rfl | simp [isAttended] at attended
  | _ => rfl

theorem starting_noticed {heard : List Json} {begun : List Nat} {turns delays : Nat}
    {filled : Bool} {s : World} (starting : Starting heard begun turns filled delays s)
    (attended : isAttended now s.1 e = true) (fresh : BeginsNew s.1 e) (about : e.call? = none) :
    Starting (heard ++ s.1.arrived e) begun turns (filled || e.fills) delays
      ((step now s.1 e).1, s.2 ++ (step now s.1 e).2) := by
  obtain ⟨configured, consulted, attentive, underway, accounted, paced, swift⟩ := starting
  have lined := consulted.booked.lined
  have reads := heard_step now lined about
  have noticed := noticed_step now lined about
  have silent : returned (s.2 ++ (step now s.1 e).2) = returned s.2 := by
    rw [returned_append, reads.no_return, List.append_nil]
  refine ⟨?_, consulted_step consulted now (isConsulting_of_isAttended attended) fresh,
    noticed.attentive attentive, underway.hears consulted.booked attentive attended about, ?_, ?_,
    fun unfilled => ?_⟩
  · rwa [noticed.held.setup]
  · rw [reads.tasks, silent]
    exact accounted
  · rw [noticed.held.current, silent]
    exact paced
  · obtain ⟨before, fills⟩ := Bool.or_eq_false_iff.mp unfilled
    exact ⟨flows_step now fills (swift before).1, (swift before).2⟩

theorem starting_goesOn {heard : List Json} {begun : List Nat} {turns delays delay : Nat}
    {filled : Bool} {s : World} (starting : Starting heard begun turns filled delays s)
    (consults : e.isConsulting = true) (fresh : BeginsNew s.1 e) (about : e.call? = some call)
    (goes : Goes now s.1 call e (step now s.1 e) delay) (slow : Flows s.1 → delay = 0) :
    Starting heard (begun ++ e.begun?.toList) (turns + (s.1.isTurn e).toNat) filled
      (delays + delay) ((step now s.1 e).1, s.2 ++ (step now s.1 e).2) := by
  obtain ⟨configured, consulted, attentive, underway, accounted, paced, swift⟩ := starting
  have next := consulted_step consulted now consults fresh
  have tended := tended_step (c := s.1) now about
  have acts := (step_settles now about (fresh call) consulted.booked).2
  have proceeds : Proceeds now s.1 call e (step now s.1 e) delay :=
    ⟨goes, fun other apart => isQueued?_congr (acts.callWrite? apart), tended.flows⟩
  refine ⟨?_, next, tended.attentive attentive, underway.goesOn consulted fresh proceeds, ?_, ?_,
    fun unfilled => ?_⟩
  · rcases goes.returns with ⟨same, _⟩ | ⟨_, setup, _⟩
    · rwa [same]
    · rwa [setup]
  · have own := goes.accounts consulted.booked next.booked fresh about
    rw [returned_append, List.perm_iff_count]
    intro number
    have before := accounted.count_eq number
    have since := own.count_eq number
    simp only [List.count_append] at before since ⊢
    omega
  · have pace := underway.paces consulted fresh goes
    rw [returned_append, List.length_append]
    dsimp only
    omega
  · obtain ⟨flows, early⟩ := swift unfilled
    exact ⟨tended.flows flows, by rw [early, slow flows]⟩

theorem fills_of_call (about : e.call? = some call) : e.fills = false := by
  cases e <;> first | rfl | cases about

theorem starting_step {heard : List Json} {begun : List Nat} {turns delays : Nat} {filled : Bool}
    {s : World} (starting : Starting heard begun turns filled delays s)
    (attended : isAttended now s.1 e = true) (fresh : BeginsNew s.1 e) :
    ∃ delay, Starting (heard ++ s.1.arrived e) (begun ++ e.begun?.toList)
      (turns + (s.1.isTurn e).toNat) (filled || e.fills) (delays + delay)
      ((step now s.1 e).1, s.2 ++ (step now s.1 e).2) := by
  have consults := isConsulting_of_isAttended attended
  cases about : e.call? with
  | none =>
    refine ⟨0, ?_⟩
    have noticed := starting_noticed starting attended fresh about
    have later : e.begun? = none := by cases e <;> first | rfl | cases about
    have unmoved : s.1.isTurn e = false := by
      cases e <;> first | rfl | cases about
    rw [later, unmoved]
    exact (List.append_nil begun).symm ▸ noticed
  | some call =>
    have advance := starting.consulted.advance now consults fresh about
    rw [arrived_of_call about, List.append_nil, fills_of_call about, Bool.or_false]
    rcases advance.goes starting.consulted starting.underway.plain starting.configured attended
        fresh about with goes | ⟨slow, goes⟩
    · exact ⟨0, starting_goesOn starting consults fresh about goes fun _ => rfl⟩
    · exact ⟨1, starting_goesOn starting consults fresh about goes fun flows => absurd flows slow⟩

theorem starting_run {c : Client} {events : List (Int × Event)} {heard : List Json}
    {earlier : List Nat} {turns delays : Nat} {filled : Bool} {effects : List Effect}
    (orderly : Orderly c events)
    (starting : Starting heard earlier turns filled delays (c, effects))
    (attended : EachStep (fun c now e => isAttended now c e = true) c events) :
    ∃ late, Starting (heard ++ arrivals c events) (earlier ++ begun events)
      (turns + turnsTaken c events) (filled || events.any (·.2.fills)) late
      ((run c events).1, effects ++ (run c events).2) := by
  -- What was heard and done before is carried along to the events that are left.
  induction events generalizing c heard earlier turns delays filled effects with
  | nil =>
    unfold run
    rw [List.append_nil, List.any_nil, Bool.or_false]
    exact ⟨delays, (List.append_nil heard).symm ▸ (List.append_nil earlier).symm ▸ starting⟩
  | cons event more ih =>
    obtain ⟨now, e⟩ := event
    obtain ⟨delay, next⟩ := starting_step starting attended.1 orderly.unknown
    obtain ⟨late, rest⟩ := ih orderly.step next attended.2
    refine ⟨late, ?_⟩
    unfold arrivals turnsTaken run
    rw [begun_cons, List.any_cons, ← Bool.or_assoc, ← List.append_assoc, ← List.append_assoc,
      ← List.append_assoc, ← Nat.add_assoc]
    exact rest

theorem starting_ofSetup {setup : ServerSetup} (configured : setup.command ≠ []) :
    Starting [] [] 0 false 0 (ofSetup setup, []) :=
  ⟨configured, consulted_ofSetup setup, attentive_ofSetup setup,
    .nothing rfl ⟨rfl, flows_ofSetup setup, rfl, rfl⟩ rfl, .refl [], Nat.zero_le _,
    fun _ => ⟨flows_ofSetup setup, rfl⟩⟩

theorem Underway.done {heard : List Json} {delays : Nat} {s : World}
    (underway : Underway heard delays s) (idle : s.1.tasks = []) :
    s.1.initialized = true ∨ s.2 = [] := by
  have nobody : ∀ {t}, ¬ s.1.Alone (some t) := by
    intro t alone
    have member := alone.1 t rfl
    rw [idle] at member
    cases member
  cases underway with
  | nothing => exact .inr rfl
  | spawning call deadline alone => exact (nobody alone).elim
  | greeting call id deadline params replies alone => exact (nobody alone).elim
  | queueing call id deadline params result replies alone => exact (nobody alone).elim
  | telling call id deadline params result replies more delays few alone =>
    exact (nobody alone).elim
  | ready call id params result replies more delays few alone serves => exact .inl serves.ready

theorem Starting.done {heard : List Json} {begun : List Nat} {turns delays : Nat} {filled : Bool}
    {s : World} (starting : Starting heard begun turns filled delays s) (idle : s.1.tasks = [])
    (some : begun ≠ []) : s.1.initialized = true := by
  refine (starting.underway.done idle).resolve_right fun nothing => ?_
  have accounted := starting.accounted
  rw [idle, nothing] at accounted
  exact some accounted.nil_eq.symm

end

/-- However many calls start a server that stays alive and connected and answers in time: one
    process is spawned and greeted once, and calls return after that and without an error. Each call
    that has begun waits or has returned; whenever any waits, one of them is owed to go on or the
    server's answer or room; and once all that is owed has come, which is soon, all have returned
    and the server is ready. -/
theorem started_once (setup : ServerSetup) (configured : setup.command ≠ [])
    (events : List (Int × Event)) (distinct : (begun events).Nodup)
    (attended : EachStep (fun c now e => isAttended now c e = true) (ofSetup setup) events) :
    let s := run (ofSetup setup) events
    let heard := arrivals (ofSetup setup) events
    Traced heard s.1.initialized s.2 ∧
      (s.1.tasks.map (·.call) ++ returned s.2).Perm (begun events) ∧
      (s.1.tasks ≠ [] → ∃ t ∈ s.1.tasks, s.1.IsOwed heard t) ∧
      turnsTaken (ofSetup setup) events ≤
        (returned s.2).length + (if events.any (·.2.fills) then 3 else 1) ∧
      (s.1.tasks = [] → begun events ≠ [] → s.1.initialized = true) := by
  intro s heard
  obtain ⟨delays, ran⟩ : ∃ delays, Starting heard (begun events) (turnsTaken (ofSetup setup) events)
      (events.any (·.2.fills)) delays s := by
    have ran := starting_run (orderly_ofSetup setup distinct) (starting_ofSetup configured) attended
    rwa [List.nil_append, List.nil_append, List.nil_append, Nat.zero_add, Bool.false_or] at ran
  refine ⟨ran.underway.traced, ran.accounted, ran.underway.owes ran.consulted, ?_, ran.done⟩
  have paced := ran.paced
  have few := ran.underway.few
  have one : s.1.current.toList.length ≤ 1 := by cases s.1.current <;> simp
  cases fills : events.any (·.2.fills) with
  | true =>
    rw [if_pos rfl]
    omega
  | false =>
    have early := (ran.swift fills).2
    rw [if_neg Bool.false_ne_true]
    omega

theorem started_once_thrice :
    let answer : Bytes := Frame.encode (.object [("id", .int 1), ("result", .null)])
    let events : List (Int × Event) :=
      [(0, .begin 0 .start), (0, .begin 1 .start), (0, .spawned 0 none), (1, .output 0 answer),
        (1, .resume 0), (1, .resume 1), (2, .begin 2 .start)]
    let s := run (ofSetup ⟨[['s']], ⟨['/'], []⟩, 1, 10000000, 100⟩) events
    s.1.initialized = true ∧ returned s.2 = [0, 1, 2] ∧
      turnsTaken (ofSetup ⟨[['s']], ⟨['/'], []⟩, 1, 10000000, 100⟩) events = 3 := by
  intro answer events s
  have attended : EachStep (fun c now e => isAttended now c e = true)
      (ofSetup ⟨[['s']], ⟨['/'], []⟩, 1, 10000000, 100⟩) events := by decide +kernel
  have idle : s.1.tasks = [] := List.isEmpty_iff.mp (by decide +kernel)
  obtain ⟨_, _, _, _, done⟩ := started_once ⟨[['s']], ⟨['/'], []⟩, 1, 10000000, 100⟩ (by decide) events
    (by decide) attended
  exact ⟨done idle (by decide), by decide +kernel, by decide +kernel⟩

end Client

end TemplateTypes
