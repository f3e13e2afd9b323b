import TemplateTypes.Proofs.Server.Listening
import Mathlib.Data.List.Nodup

namespace TemplateTypes

open Text

def Event.isConsulting : Event → Bool
  | .begin _ .start | .begin _ (.hoverDocument _) => true
  | .begin _ _ => false
  | _ => true

namespace Stage

def isStarting : Stage → Bool
  | .startTurn _ | .spawning _ | .handshake _ _ | .greeting _ => true
  | _ => false

def hasTurn : Stage → Bool
  | .spawning _ | .handshake _ _ | .greeting _ => true
  | _ => false

/-- The server has been started for the call, and its document is read, asked about or closed. -/
def isHovering : Stage → Bool
  | .reading _ | .opening _ | .answer _ _ (.candidatesOf _) | .lastWrite _ => true
  | _ => false

def isConsulting (stage : Stage) : Bool := stage.isStarting || stage.isHovering

theorem isStarting_of_hasTurn {stage : Stage} (turn : stage.hasTurn = true) :
    stage.isStarting = true := by
  cases stage <;> first | rfl | cases turn

theorem isStarting_of_isHovering {stage : Stage} (hovering : stage.isHovering = true) :
    stage.isStarting = false := by
  cases stage <;> first | rfl | cases hovering

theorem hasTurn_of_isHovering {stage : Stage} (hovering : stage.isHovering = true) :
    stage.hasTurn = false := by
  cases stage <;> first | rfl | cases hovering

theorem isConsulting_of_isHovering {stage : Stage} (hovering : stage.isHovering = true) :
    stage.isConsulting = true := by
  rw [isConsulting, hovering, Bool.or_true]

theorem isClosing_of_isConsulting {stage : Stage} (consulting : stage.isConsulting = true) :
    stage.isClosing = false := by
  cases stage <;> first | rfl | cases consulting

end Stage

namespace Message

def initialized : Json := notification "initialized".toList (.obj [])

def opened (uri content : Text) : Json :=
  notification openMethod (openParams uri "typescript".toList content)

def closed (uri : Text) : Json := notification closeMethod (documentParams uri)

end Message

/-- What a call may be writing at a stage, or has to be. -/
def Stage.Tells (stage : Stage) (payload : Option Json) : Prop :=
  match stage with
  | .handshake request _ =>
    ∀ p ∈ payload, ∃ params, p = Message.request request Message.initializeMethod params
  | .greeting _ => payload = some Message.initialized
  | .opening _ | .lastWrite _ => payload.isSome = true
  | _ => True

namespace AfterStart

def call : AfterStart → Call
  | .finish => .start
  | .hover q => .hoverDocument q

def task? (call : Nat) : AfterStart → Option CallTask
  | .finish => none
  | .hover q => some ⟨call, .reading q, none⟩

def effect (call : Nat) : AfterStart → Effect
  | .finish => .finish call (.value .null)
  | .hover q => .readDocument call q.uri

theorem effect_ne_write (a : AfterStart) (call process : Nat) (payload : Json) :
    a.effect call ≠ .write process payload := by
  cases a <;> exact Effect.noConfusion

end AfterStart

namespace Client

def Tells (c : Client) (t : CallTask) : Prop :=
  t.stage.Tells ((c.callWrite? t.call).map (·.2.1))

def enters (c : Client) (e : Event) : Client :=
  { c with startQueue := c.startQueue ++ e.begun?.toList }

def passed (c : Client) (e : Event) (call : Nat) : List Nat :=
  (c.enters e).startQueue.filter (· != call)

def Turns (c : Client) (call : Nat) (e : Event) (a : AfterStart) : Prop :=
  e = .begin call a.call ∨ ∃ deadline, c.task? call = some ⟨call, .startTurn a, deadline⟩

structure Shifted (call : Nat) (own : Option CallTask) (c d : Client) : Prop where
  setup : d.setup = c.setup
  tasks : d.tasks = (withoutTask call c).tasks ++ own.toList

structure Calm (call : Nat) (own : Option CallTask) (c d : Client) : Prop
    extends Shifted call own c d where
  processes : d.processes = c.processes
  current : d.current = c.current
  initialized : d.initialized = c.initialized

/-- The other calls are where they were. -/
def Remains (call : Nat) (own : Option CallTask) (c d : Client) : Prop :=
  ∀ t, t ∈ d.tasks ↔ t ∈ own ∨ t ∈ c.tasks ∧ t.call ≠ call

structure Stays (call : Nat) (own : Option CallTask) (c d : Client) : Prop where
  setup : d.setup = c.setup
  remains : Remains call own c d
  processes : d.processes = c.processes
  current : d.current = c.current
  initialized : d.initialized = c.initialized

/-- A client with other requests and writes. -/
structure Alike (c d : Client) : Prop where
  setup : d.setup = c.setup
  tasks : d.tasks = c.tasks
  processes : d.processes = c.processes
  current : d.current = c.current
  initialized : d.initialized = c.initialized
  queue : d.startQueue = c.startQueue

def moves (c : Client) : Event → Bool
  | .begin _ _ => true
  | .spawned call _ => (c.task? call).any (·.stage matches .spawning _)
  | .document call _ => (c.task? call).any (·.stage matches .reading _)
  | .resume call => (c.task? call).any c.isReady
  | .expired call =>
    (c.task? call).any fun t => t.stage.request?.isSome && !c.isWriting (.call call)
  | .cancelled call => (c.task? call).isSome
  | _ => false

inductive StartFailure (c : Client) (call : Nat) (e : Event) : Prop
  | unconfigured (empty : c.setup.command = [])
  | unspawned (reason : Text) (same : e = .spawned call (some reason))
  | late (same : e = .expired call) (request : Nat) (a : AfterStart) (deadline : Option Int)
    (there : c.task? call = some ⟨call, .handshake request a, deadline⟩)
  | cancelled (same : e = .cancelled call)
  | refused (request : Nat) (a : AfterStart) (deadline : Option Int) (fault : Fault)
    (there : c.task? call = some ⟨call, .handshake request a, deadline⟩)
    (answered : c.outcome? request = some (.error fault))
  | unreachable (request : Nat) (a : AfterStart) (deadline : Option Int)
    (there : c.task? call = some ⟨call, .handshake request a, deadline⟩)
    (unreachable : c.isReachable = false)
  | unwritten (writing : c.isWriting (.call call) = true) (severed : c.isSevered = true)

/-- A call that consults the server goes on or ends. -/
structure Dwells (call : Nat) (own : Option CallTask) (c : Client) (after : World) : Prop where
  stays : Stays call own c after.1
  hovering : ∀ t ∈ own, t.call = call ∧ t.stage.isHovering = true ∧ Tells after.1 t
  queue : after.1.startQueue = c.startQueue
  wrote : ∀ process payload, .write process payload ∈ after.2 →
    c.current = some process ∧ c.isReachable = true

/-- What a call does when its writes take time. -/
inductive Drags (c : Client) (call : Nat) (e : Event) (after : World) : Prop
  | greets (a : AfterStart) (accepted : e = .spawned call none) (deadline : Option Int)
    (there : c.task? call = some ⟨call, .spawning a, deadline⟩)
    (shifted : Shifted call (some ⟨call, .handshake (c.lastRequest + 1) a, none⟩) c after.1)
    (queue : after.1.startQueue = c.startQueue)
    (processes : after.1.processes = c.processes ++ [.fresh c.setup.nesting])
    (current : after.1.current = some c.processes.length)
    (initialized : after.1.initialized = c.initialized) (params : Json) (limit : Option Int)
    (later : after.1.callWrite? call = some (.call call,
      Message.request (c.lastRequest + 1) Message.initializeMethod params, limit, true))
    (effects : after.2 = [])
  | tells (a : AfterStart) (request : Nat) (deadline : Option Int)
    (there : c.task? call = some ⟨call, .handshake request a, deadline⟩)
    (idle : c.callWrite? call = none) (result : Json)
    (answered : c.outcome? request = some (.ok result))
    (calm : Calm call (some ⟨call, .greeting a, none⟩) c after.1)
    (queue : after.1.startQueue = c.startQueue) (limit : Option Int) (queued : Bool)
    (later : after.1.callWrite? call = some (.call call, Message.initialized, limit, queued))
    (hands : Hands c Message.initialized (!queued) after.2)
  | writes (t : CallTask) (there : c.task? call = some t) (turn : t.stage.hasTurn = true)
    (deadline : Option Int) (stays : Stays call (some { t with deadline }) c after.1)
    (queue : after.1.startQueue = c.startQueue) (payload : Json) (limit : Option Int)
    (queued : Bool) (before : c.callWrite? call = some (.call call, payload, limit, queued))
    (later : after.1.callWrite? call = none ∧ (∃ request a, t.stage = .handshake request a) ∨
      queued = true ∧ after.1.callWrite? call = some (.call call, payload, limit, false))
    (hands : Hands c payload queued after.2)
  | greeted (a : AfterStart) (deadline : Option Int)
    (there : c.task? call = some ⟨call, .greeting a, deadline⟩)
    (shifted : Shifted call (a.task? call) c after.1)
    (queue : after.1.startQueue = c.passed e call)
    (processes : after.1.processes = c.processes) (current : after.1.current = c.current)
    (ready : after.1.initialized = true) (payload : Json) (limit : Option Int) (queued : Bool)
    (before : c.callWrite? call = some (.call call, payload, limit, queued)) (new : List Effect)
    (hands : Hands c payload queued new) (effects : after.2 = new ++ [a.effect call])
  | dwells (t : CallTask) (there : c.task? call = some t) (hovering : t.stage.isHovering = true)
    (own : Option CallTask) (dwells : Dwells call own c after)

inductive Advance (now : Int) (c : Client) (call : Nat) (e : Event) (after : World) : Prop
  | idle (unmoved : c.moves e = false) (same : after = (c, []))
  | queues (a : AfterStart) (begins : e = .begin call a.call)
    (turn : (c.enters e).startQueue.head? ≠ some call)
    (calm : Calm call (some ⟨call, .startTurn a, none⟩) c after.1)
    (queue : after.1.startQueue = (c.enters e).startQueue)
    (pending : after.1.pending = c.pending) (effects : after.2 = [])
  | spawns (a : AfterStart) (turns : c.Turns call e a)
    (turn : (c.enters e).startQueue.head? = some call)
    (unready : (c.initialized && c.isRunning) = false)
    (calm : Calm call (some ⟨call, .spawning a, none⟩) c after.1)
    (queue : after.1.startQueue = (c.enters e).startQueue) (effects : after.2 = [.spawn call])
  | starts (a : AfterStart) (turns : c.Turns call e a)
    (turn : (c.enters e).startQueue.head? = some call)
    (ready : (c.initialized && c.isRunning) = true) (calm : Calm call (a.task? call) c after.1)
    (queue : after.1.startQueue = c.passed e call) (effects : after.2 = [a.effect call])
  | greets (a : AfterStart) (accepted : e = .spawned call none) (deadline : Option Int)
    (there : c.task? call = some ⟨call, .spawning a, deadline⟩)
    (shifted : Shifted call (some ⟨call, .handshake (c.lastRequest + 1) a,
      some (now + c.setup.requestTimeout)⟩) c after.1)
    (queue : after.1.startQueue = c.startQueue) (idle : after.1.callWrite? call = none)
    (processes : after.1.processes = c.processes ++ [.fresh c.setup.nesting])
    (current : after.1.current = some c.processes.length)
    (initialized : after.1.initialized = c.initialized)
    (pending : after.1.pending = c.pending ++ [⟨c.lastRequest + 1, none⟩])
    (effects : after.2 = [.write c.processes.length (Message.request (c.lastRequest + 1)
      Message.initializeMethod (Message.initializeParams c.setup.processId c.setup.root))])
  | greeted (a : AfterStart) (request : Nat) (deadline : Option Int)
    (there : c.task? call = some ⟨call, .handshake request a, deadline⟩)
    (idle : c.callWrite? call = none) (result : Json)
    (answered : c.outcome? request = some (.ok result)) (process : Nat)
    (own : c.current = some process) (takes : c.input process = .taking)
    (shifted : Shifted call (a.task? call) c after.1)
    (queue : after.1.startQueue = c.passed e call)
    (processes : after.1.processes = c.processes) (current : after.1.current = c.current)
    (ready : after.1.initialized = true)
    (effects : after.2 = [.write process Message.initialized, a.effect call])
  | startFails (outcome : Outcome)
    (starting : ∀ t, c.task? call = some t → t.stage.isStarting = true)
    (failure : StartFailure c call e) (calm : Calm call none c after.1)
    (queue : after.1.startQueue = c.passed e call) (effects : after.2 = [.finish call outcome])
  | opens (q : Question) (content : Text) (deadline : Option Int)
    (there : c.task? call = some ⟨call, .reading q, deadline⟩) (process : Nat)
    (own : c.current = some process) (takes : c.input process = .taking) (later : Option Int)
    (calm : Calm call (some ⟨call, .answer (c.lastRequest + 1) Message.hoverMethod
      (.candidatesOf q.uri), later⟩) c after.1)
    (queue : after.1.startQueue = c.startQueue)
    (effects : after.2 = [.write process (Message.opened q.uri content),
      .write process (Message.request (c.lastRequest + 1) Message.hoverMethod
        (Message.hoverParams q))])
  | closes (request : Nat) (method uri : Text) (deadline : Option Int)
    (there : c.task? call = some ⟨call, .answer request method (.candidatesOf uri), deadline⟩)
    (process : Nat) (own : c.current = some process) (takes : c.input process = .taking)
    (outcome : Outcome)
    (calm : Calm call none c after.1) (queue : after.1.startQueue = c.startQueue)
    (effects : after.2 = [.write process (Message.closed uri), .finish call outcome])
  | hoverFails (t : CallTask) (there : c.task? call = some t)
    (hovering : t.stage.isHovering = true)
    (stopped : (t.stage matches .reading _) ∨ c.isReachable = false)
    (outcome : Outcome) (calm : Calm call none c after.1)
    (queue : after.1.startQueue = c.startQueue) (effects : after.2 = [.finish call outcome])
  | drags (slow : ¬ Flows c) (drags : Drags c call e after)

section

variable {now : Int} {c d : Client} {call : Nat} {e : Event}

theorem forall_mem_no_task {P : CallTask → Prop} : ∀ t ∈ (none : Option CallTask), P t := by
  simp

theorem Alike.trans {f : Client} (first : Alike c d) (second : Alike d f) : Alike c f :=
  ⟨second.setup.trans first.setup, second.tasks.trans first.tasks,
    second.processes.trans first.processes, second.current.trans first.current,
    second.initialized.trans first.initialized, second.queue.trans first.queue⟩

theorem Alike.isReachable (alike : Alike c d) : d.isReachable = c.isReachable := by
  unfold Client.isReachable Client.input
  rw [alike.current, alike.processes]

theorem Alike.input (alike : Alike c d) (process : Nat) : d.input process = c.input process := by
  unfold Client.input
  rw [alike.processes]

theorem Alike.calm {f : Client} {own : Option CallTask} (alike : Alike c d)
    (calm : Calm call own d f) : Calm call own c f := by
  refine ⟨⟨calm.setup.trans alike.setup, ?_⟩, calm.processes.trans alike.processes,
    calm.current.trans alike.current, calm.initialized.trans alike.initialized⟩
  rw [calm.tasks, withoutTask, withoutTask, alike.tasks]

theorem calm_left {d : Client} (setup : d.setup = c.setup)
    (tasks : d.tasks = (withoutTask call c).tasks) (processes : d.processes = c.processes)
    (current : d.current = c.current) (initialized : d.initialized = c.initialized) :
    Calm call none c d :=
  ⟨⟨setup, tasks.trans (List.append_nil _).symm⟩, processes, current, initialized⟩

theorem mem_withoutTask {t : CallTask} :
    t ∈ (withoutTask call c).tasks ↔ t ∈ c.tasks ∧ t.call ≠ call := by
  simp [withoutTask]

theorem Shifted.remains {own : Option CallTask} (shifted : Shifted call own c d) :
    Remains call own c d := by
  intro t
  rw [shifted.tasks, List.mem_append, mem_withoutTask, Option.mem_toList]
  exact or_comm

theorem Calm.stays {own : Option CallTask} (calm : Calm call own c d) : Stays call own c d :=
  ⟨calm.setup, calm.toShifted.remains, calm.processes, calm.current, calm.initialized⟩

theorem Flows.unwrite (flows : Flows c) (writer : Writer) : Flows (unwrite writer c) := by
  refine ⟨?_, flows.room⟩
  rw [Client.unwrite, flows.free]
  rfl

theorem Hands.wrote {payload : Json} {begins : Bool} {new : List Effect}
    (hands : Hands c payload begins new) {process : Nat} {written : Json}
    (wrote : .write process written ∈ new) :
    written = payload ∧ c.current = some process ∧ c.isReachable = true := by
  unfold Hands at hands
  cases begins with
  | false =>
    obtain rfl : new = [] := hands
    cases wrote
  | true =>
    obtain ⟨other, current, reachable, rfl⟩ := hands
    obtain ⟨rfl, rfl⟩ := Effect.write.inj (List.mem_singleton.mp wrote)
    exact ⟨rfl, current, reachable⟩

theorem isAlive_of_processes {d : Client} (same : d.processes = c.processes) (process : Nat) :
    d.isAlive process = c.isAlive process := by
  unfold isAlive
  rw [same]

theorem find?_unused (booked : Booked c) {request : Nat} (beyond : c.lastRequest < request) :
    c.pending.find? (·.id == request) = none := by
  rw [List.find?_eq_none]
  intro p member same
  have known := booked.counted p.id (List.mem_map_of_mem member)
  rw [beq_iff_eq] at same
  omega

theorem enters_of_later (later : e.begun? = none) : c.enters e = c := by
  unfold enters
  rw [later]
  simp

theorem passed_of_later (c : Client) (call : Nat) (later : e.begun? = none) :
    c.passed e call = c.startQueue.filter (· != call) := by
  rw [passed, enters_of_later later]

theorem shifted_started (a : AfterStart) {s : World} (setup : s.1.setup = c.setup)
    (tasks : s.1.tasks = c.tasks) : Shifted call (a.task? call) c (started call a s).2.1 := by
  have others : (withoutTask call s.1).tasks = (withoutTask call c).tasks := by
    unfold withoutTask
    rw [tasks]
  cases a with
  | finish => exact ⟨setup, others.trans (List.append_nil _).symm⟩
  | hover q =>
    let t : CallTask := ⟨call, .reading q, none⟩
    exact ⟨setup, congrArg (· ++ [t]) others⟩

theorem started_keeps (call : Nat) (a : AfterStart) (s : World) :
    let after := (started call a s).2
    after.1.processes = s.1.processes ∧ after.1.current = s.1.current ∧
      after.1.initialized = s.1.initialized ∧
      after.1.startQueue = s.1.startQueue.filter (· != call) ∧
      after.2 = s.2 ++ [a.effect call] := by
  cases a <;> exact ⟨rfl, rfl, rfl, rfl, rfl⟩

theorem unique_task? {t : CallTask} {P : CallTask → Prop} (there : c.task? call = some t)
    (holds : P t) : ∀ u, c.task? call = some u → P u := by
  intro u known
  obtain rfl := Option.some.inj (there.symm.trans known)
  exact holds

theorem advance_takeTurn (now : Int) {a : AfterStart} (turns : c.Turns call e a)
    (turn : (c.enters e).startQueue.head? = some call)
    (starting : ∀ t, c.task? call = some t → t.stage.isStarting = true) :
    Advance now c call e (takeTurn call a (c.enters e, [])).2 := by
  unfold takeTurn
  rw [bind_apply, read_apply]
  dsimp only
  have running : ((c.enters e).initialized && (c.enters e).isRunning) =
      (c.initialized && c.isRunning) := rfl
  rw [running]
  cases ready : c.initialized && c.isRunning with
  | true =>
    rw [if_pos rfl]
    obtain ⟨processes, current, initialized, queue, effects⟩ :=
      started_keeps call a (c.enters e, [])
    exact .starts a turns turn ready
      ⟨shifted_started a rfl rfl, processes, current, initialized⟩ queue effects
  | false =>
    cases empty : c.setup.command with
    | nil =>
      have same : (c.enters e).setup.command.isEmpty = true := by
        change c.setup.command.isEmpty = true
        rw [empty]
        rfl
      rw [if_neg Bool.false_ne_true, if_pos same]
      exact .startFails _ starting (.unconfigured empty) (calm_left rfl rfl rfl rfl rfl) rfl rfl
    | cons word more =>
      have same : (c.enters e).setup.command.isEmpty = false := by
        change c.setup.command.isEmpty = false
        rw [empty]
        rfl
      rw [if_neg Bool.false_ne_true, same, if_neg Bool.false_ne_true]
      exact .spawns a turns turn ready ⟨⟨rfl, rfl⟩, rfl, rfl, rfl⟩ rfl rfl

theorem advance_greet {a : AfterStart} {deadline : Option Int}
    (there : c.task? call = some ⟨call, .spawning a, deadline⟩) (idle : c.callWrite? call = none) :
    Advance now c call (.spawned call none) (greet now call a (c, [])).2 := by
  let d : Client := { c with
    processes := c.processes ++ [.fresh c.setup.nesting]
    current := some c.processes.length
    reader := some c.processes.length }
  let id := c.lastRequest + 1
  let asking : World := (busier (some id) none d, [])
  let params := Message.initializeParams c.setup.processId c.setup.root
  have queue : asking.1.writes = c.writes := List.append_nil _
  have idle : asking.1.callWrite? call = none :=
    (callWrite?_congr (callWrites_congr queue) call).trans idle
  have takes : asking.1.input c.processes.length = .taking := by
    simp [asking, d, busier, Client.input, ServerProcess.fresh]
  obtain ⟨sent, after, sends, sent_eq⟩ := send_cases (.call call)
    (Message.request id Message.initializeMethod params) (some c.setup.requestTimeout) asking
  have asks : greet now call a (c, []) =
      sent.elim (wait call (.handshake id a) (some (now + c.setup.requestTimeout)))
        (fun e => forget id >>= fun _ => startFailed call e.fault)
        (wait call (.handshake id a) none) after :=
    ask_apply (.handshake · a) (s := (d, [])) sent_eq
  rw [asks]
  cases sends with
  | notRunning none => cases none
  | lost process reason current free lost =>
    obtain rfl := Option.some.inj current
    cases takes.symm.trans lost
  | done process current free _ =>
    obtain rfl := Option.some.inj current
    exact .greets a rfl deadline there ⟨rfl, rfl⟩ rfl idle rfl rfl rfl rfl rfl
  | drains process current free full =>
    obtain rfl := Option.some.inj current
    cases takes.symm.trans full
  | queues process current busy =>
    exact .drags (fun flows => busy (queue.trans flows.free)) (.greets a rfl deadline there
      ⟨rfl, rfl⟩ rfl rfl rfl rfl params _ (callWrite?_append idle rfl) rfl)

theorem takeOutcome_settled {request : Nat} {outcome : Except Fault Json}
    (settled : c.outcome? request = some outcome) (next : Except Fault Json → Act Unit) :
    takeOutcome request next (c, []) =
      next outcome ({ c with pending := c.pending.filter (·.id != request) }, []) := by
  unfold takeOutcome
  rw [bind_apply, read_apply]
  dsimp only
  rw [settled]
  rfl

theorem isReachable_of_failed {writer : Writer} {payload : Json} {limit : Option Int}
    {s after : World} {fault : WriteError}
    (sends : Sends writer payload limit s (.failed fault) after) :
    s.1.isReachable = false ∧ after = s := by
  cases sends with
  | notRunning none => exact ⟨by simp [isReachable, none], rfl⟩
  | lost process reason current free lost => exact ⟨by simp [isReachable, current, lost], rfl⟩

/-- The server has answered the request to initialize. -/
theorem advance_greeted {a : AfterStart} {request : Nat} {deadline : Option Int}
    (there : c.task? call = some ⟨call, .handshake request a, deadline⟩)
    (idle : c.callWrite? call = none) (later : e.begun? = none) {outcome : Except Fault Json}
    (answered : c.outcome? request = some outcome) :
    Advance now c call e (takeOutcome request (greeted call a) (c, [])).2 := by
  have starting : ∀ t, c.task? call = some t → t.stage.isStarting = true :=
    unique_task? there rfl
  have queue := passed_of_later c call later
  let d : Client := { c with pending := c.pending.filter (·.id != request) }
  rw [takeOutcome_settled answered]
  cases outcome with
  | error fault =>
    exact .startFails _ starting (.refused request a deadline fault there answered)
      (calm_left rfl rfl rfl rfl rfl) queue.symm rfl
  | ok result =>
    obtain ⟨sent, after, sends, sent_eq⟩ :=
      send_cases (.call call) Message.initialized none (d, [])
    have tells : greeted call a (.ok result) (d, []) =
        sent.elim (greetingSent call a none) (fun e => greetingSent call a (some e))
          (wait call (.greeting a) none) after := sendThen_apply sent_eq
    rw [tells]
    cases sent with
    | failed e =>
      obtain ⟨unreachable, rfl⟩ := isReachable_of_failed sends
      exact .startFails _ starting (.unreachable request a deadline there unreachable)
        (calm_left rfl rfl rfl rfl rfl) queue.symm rfl
    | done =>
      cases sends with
      | done process own free takes =>
        let told : World := ({ d with initialized := true }, [.write process Message.initialized])
        obtain ⟨processes, current, initialized, passed, effects⟩ := started_keeps call a told
        exact .greeted a request deadline there idle result answered process own takes
          (shifted_started (s := told) a rfl rfl) (passed.trans queue.symm) processes current
          initialized effects
    | waits =>
      obtain ⟨writes, queued, new, rfl, own, hands, slow⟩ := sends.waiting idle
      exact .drags (fun flows => slow (flows.congr rfl rfl)) (.tells a request deadline there idle
        result answered ⟨⟨rfl, rfl⟩, rfl, rfl, rfl⟩ rfl none queued own hands)

theorem nothing_written : ∀ process payload, Effect.write process payload ∈ ([] : List Effect) →
    c.current = some process ∧ c.isReachable = true := by
  simp

theorem dwells_leave {new : List Effect} (alike : Alike c d)
    (wrote : ∀ process payload, .write process payload ∈ new →
      c.current = some process ∧ c.isReachable = true) (outcome : Outcome) :
    Dwells call none c (leave call outcome (d, new)).2 := by
  have left : Calm call none d (withoutTask call d) := calm_left rfl rfl rfl rfl rfl
  refine ⟨(alike.calm left).stays, forall_mem_no_task, alike.queue, fun process payload member => ?_⟩
  rcases List.mem_append.mp member with before | ends
  · exact wrote process payload before
  · cases List.mem_singleton.mp ends

theorem dwells_wait (stage : Stage) {new : List Effect} (alike : Alike c d)
    (hovering : stage.isHovering = true)
    (told : stage.Tells ((d.callWrite? call).map (·.2.1)))
    (wrote : ∀ process payload, .write process payload ∈ new →
      c.current = some process ∧ c.isReachable = true) (deadline : Option Int) :
    Dwells call (some ⟨call, stage, deadline⟩) c (wait call stage deadline (d, new)).2 := by
  let later : Client := (wait call stage deadline (d, new)).2.1
  have calm : Calm call (some ⟨call, stage, deadline⟩) d later := ⟨⟨rfl, rfl⟩, rfl, rfl, rfl⟩
  refine ⟨(alike.calm calm).stays, ?_, alike.queue, wrote⟩
  rintro t ⟨⟩
  exact ⟨rfl, hovering, told⟩

/-- The call ends with a message. -/
theorem dwells_finishWriting {new : List Effect} (alike : Alike c d)
    (idle : d.callWrite? call = none)
    (wrote : ∀ process payload, .write process payload ∈ new →
      c.current = some process ∧ c.isReachable = true) (payload : Json) (outcome : Outcome) :
    ∃ own, Dwells call own c (finishWriting call payload outcome (d, new)).2 := by
  obtain ⟨sent, after, sends, sent_eq⟩ := send_cases (.call call) payload none (d, new)
  unfold finishWriting
  rw [sendThen_apply sent_eq]
  cases sent with
  | failed e =>
    obtain ⟨_, rfl⟩ := isReachable_of_failed sends
    exact ⟨none, dwells_leave alike wrote _⟩
  | done =>
    cases sends with
    | done process current free takes =>
      refine ⟨none, dwells_leave alike (fun other written member => ?_) outcome⟩
      rcases List.mem_append.mp member with before | now
      · exact wrote other written before
      · obtain ⟨rfl, _⟩ := Effect.write.inj (List.mem_singleton.mp now)
        exact ⟨alike.current.symm.trans current,
          alike.isReachable.symm.trans (isReachable_of_taking current takes)⟩
  | waits =>
    obtain ⟨writes, queued, more, rfl, own, hands, _⟩ := sends.waiting idle
    have busy : Alike c (withWrites writes d) := alike.trans ⟨rfl, rfl, rfl, rfl, rfl, rfl⟩
    have told : (((withWrites writes d).callWrite? call).map (·.2.1)).isSome = true :=
      congrArg (fun write => (write.map (·.2.1)).isSome) own
    refine ⟨_, dwells_wait (.lastWrite outcome) busy rfl told (fun other written member => ?_)
      none⟩
    rcases List.mem_append.mp member with before | now
    · exact wrote other written before
    · obtain ⟨_, current, reachable⟩ := hands.wrote now
      exact ⟨alike.current.symm.trans current, alike.isReachable.symm.trans reachable⟩

theorem send_taken {writer : Writer} {payload : Json} {limit : Option Int} {s : World}
    {process : Nat} (free : s.1.writes = []) (own : s.1.current = some process)
    (takes : s.1.input process = .taking) :
    send writer payload limit s = (.done, s.1, s.2 ++ [.write process payload]) := by
  obtain ⟨sent, after, sends, sent_eq⟩ := send_cases writer payload limit s
  rw [sent_eq]
  cases sends with
  | notRunning none => cases none.symm.trans own
  | done other current _ _ =>
    obtain rfl := Option.some.inj (current.symm.trans own)
    rfl
  | lost other reason current _ lost =>
    obtain rfl := Option.some.inj (current.symm.trans own)
    cases lost.symm.trans takes
  | drains other current _ full =>
    obtain rfl := Option.some.inj (current.symm.trans own)
    cases full.symm.trans takes
  | queues other current busy => exact absurd free busy

theorem hoverContent_taken {process : Nat} (free : c.writes = []) (own : c.current = some process)
    (takes : c.input process = .taking) (q : Question) (content : Text) :
    (hoverContent now call q content (c, [])).2 = ({ busier (some (c.lastRequest + 1)) none c with
      tasks := (withoutTask call c).tasks ++ [⟨call, .answer (c.lastRequest + 1) Message.hoverMethod
        (.candidatesOf q.uri), some (now + timeLimit c.setup none)⟩] },
      [.write process (Message.opened q.uri content), .write process
        (Message.request (c.lastRequest + 1) Message.hoverMethod (Message.hoverParams q))]) := by
  let told : World := (c, [.write process (Message.opened q.uri content)])
  have opened : hoverContent now call q content (c, []) = documentSent now call q none told :=
    sendThen_apply (send_taken (s := (c, [])) free own takes)
  have asked : documentSent now call q none told =
      wait call (.answer (c.lastRequest + 1) Message.hoverMethod (.candidatesOf q.uri))
        (some (now + timeLimit c.setup none)) (busier (some (c.lastRequest + 1)) none c,
          told.2 ++ [_]) :=
    ask_apply (.answer · Message.hoverMethod (.candidatesOf q.uri)) (s := told)
      (send_taken (s := (busier (some (c.lastRequest + 1)) none c, told.2))
        ((List.append_nil _).trans free) own takes)
  rw [opened, asked]
  rfl

theorem advance_hoverContent {q : Question} {deadline : Option Int}
    (there : c.task? call = some ⟨call, .reading q, deadline⟩) (idle : c.callWrite? call = none)
    (content : Text) : Advance now c call e (hoverContent now call q content (c, [])).2 := by
  let payload := Message.opened q.uri content
  obtain ⟨sent, after, sends, sent_eq⟩ := send_cases (.call call) payload none (c, [])
  have opens : hoverContent now call q content (c, []) =
      sent.elim (documentSent now call q none) (fun e => documentSent now call q (some e))
        (wait call (.opening q) none) after := sendThen_apply sent_eq
  cases sent with
  | failed e =>
    obtain ⟨_, rfl⟩ := isReachable_of_failed sends
    rw [opens]
    exact .hoverFails _ there rfl (.inl rfl) _ (calm_left rfl rfl rfl rfl rfl) rfl rfl
  | done =>
    cases sends with
    | done process own free takes =>
      rw [hoverContent_taken free own takes]
      exact .opens q content deadline there process own takes _ ⟨⟨rfl, rfl⟩, rfl, rfl, rfl⟩ rfl rfl
  | waits =>
    obtain ⟨writes, queued, more, rfl, later, hands, slow⟩ := sends.waiting idle
    rw [opens]
    have told : (((withWrites writes c).callWrite? call).map (·.2.1)).isSome = true :=
      congrArg (fun write => (write.map (·.2.1)).isSome) later
    have busy : Alike c (withWrites writes c) := ⟨rfl, rfl, rfl, rfl, rfl, rfl⟩
    refine .drags slow (.dwells _ there rfl _ (dwells_wait (.opening q) busy rfl told
      (fun other written member => ?_) none))
    exact (hands.wrote member).2

theorem dwells_documentSent (now : Int) {new : List Effect} (alike : Alike c d)
    (idle : d.callWrite? call = none)
    (wrote : ∀ process payload, .write process payload ∈ new →
      c.current = some process ∧ c.isReachable = true) (q : Question)
    (failure : Option WriteError) :
    ∃ own, Dwells call own c (documentSent now call q failure (d, new)).2 := by
  cases failure with
  | some e => exact ⟨none, dwells_leave alike wrote _⟩
  | none =>
    let id := d.lastRequest + 1
    let limit := timeLimit d.setup none
    let answers : Stage := .answer id Message.hoverMethod (.candidatesOf q.uri)
    let asking : World := (busier (some id) none d, new)
    have idle : asking.1.callWrite? call = none :=
      (callWrite?_congr (callWrites_congr (List.append_nil _)) call).trans idle
    have made : Alike c asking.1 := alike.trans ⟨rfl, rfl, rfl, rfl, rfl, rfl⟩
    obtain ⟨sent, after, sends, sent_eq⟩ := send_cases (.call call)
      (Message.request id Message.hoverMethod (Message.hoverParams q)) (some limit) asking
    have asks : documentSent now call q none (d, new) =
        sent.elim (wait call answers (some (now + limit)))
          (fun e => forget id >>= fun _ =>
            finishAnswer call (.candidatesOf q.uri) (.error e.fault))
          (wait call answers none) after :=
      ask_apply (.answer · Message.hoverMethod (.candidatesOf q.uri)) (s := (d, new))
        sent_eq
    rw [asks]
    cases sent with
    | failed e =>
      obtain ⟨_, rfl⟩ := isReachable_of_failed sends
      exact dwells_finishWriting (d := (forget id asking).2.1)
        (made.trans ⟨rfl, rfl, rfl, rfl, rfl, rfl⟩) idle wrote _ _
    | done =>
      cases sends with
      | done process current free takes =>
        refine ⟨_, dwells_wait answers made rfl True.intro (fun other written member => ?_) _⟩
        rcases List.mem_append.mp member with before | now
        · exact wrote other written before
        · obtain ⟨rfl, _⟩ := Effect.write.inj (List.mem_singleton.mp now)
          exact ⟨made.current.symm.trans current,
            made.isReachable.symm.trans (isReachable_of_taking current takes)⟩
    | waits =>
      obtain ⟨writes, queued, more, rfl, own, hands, _⟩ := sends.waiting idle
      have busy : Alike c (withWrites writes asking.1) :=
        made.trans ⟨rfl, rfl, rfl, rfl, rfl, rfl⟩
      refine ⟨_, dwells_wait answers busy rfl True.intro (fun other written member => ?_) none⟩
      rcases List.mem_append.mp member with before | now
      · exact wrote other written before
      · obtain ⟨_, current, reachable⟩ := hands.wrote now
        exact ⟨made.current.symm.trans current, made.isReachable.symm.trans reachable⟩

theorem advance_closeDocument {request : Nat} {method uri : Text} {deadline : Option Int}
    (there : c.task? call = some ⟨call, .answer request method (.candidatesOf uri), deadline⟩)
    (alike : Alike c d) (idle : d.callWrite? call = none) (flows : Flows c → Flows d)
    (outcome : Outcome) :
    Advance now c call e (closeDocument call uri outcome (d, [])).2 := by
  obtain ⟨sent, after, sends, sent_eq⟩ :=
    send_cases (.call call) (Message.closed uri) none (d, [])
  have closes : closeDocument call uri outcome (d, []) =
      sent.elim (lastSent call outcome none) (fun e => lastSent call outcome (some e))
        (wait call (.lastWrite outcome) none) after := sendThen_apply sent_eq
  have left : Calm call none c (withoutTask call d) :=
    alike.calm (calm_left rfl rfl rfl rfl rfl)
  cases sent with
  | failed e =>
    obtain ⟨unreachable, rfl⟩ := isReachable_of_failed sends
    rw [closes]
    exact .hoverFails _ there rfl (.inr (alike.isReachable.symm.trans unreachable)) _ left
      alike.queue rfl
  | done =>
    cases sends with
    | done process own free takes =>
      rw [closes]
      exact .closes request method uri deadline there process (alike.current.symm.trans own)
        ((alike.input process).symm.trans takes) _ left alike.queue rfl
  | waits =>
    obtain ⟨own, dwells⟩ := dwells_finishWriting alike idle nothing_written (Message.closed uri)
      outcome
    obtain ⟨_, _, _, _, _, _, slow⟩ := sends.waiting idle
    exact .drags (fun flowing => slow (flows flowing)) (.dwells _ there rfl own dwells)

theorem advance_resume {t : CallTask} (there : c.task? t.call = some t)
    (idle : c.isWriting (.call t.call) = false) (consulting : t.stage.isConsulting = true)
    (ready : c.isReady t = true) (later : e.begun? = none) :
    Advance now c t.call e (resume now t (c, [])).2 := by
  obtain ⟨call, stage, deadline⟩ := t
  have unwriting : c.callWrite? call = none := callWrite?_eq_none_iff.mpr idle
  unfold isReady at ready
  rw [idle] at ready
  cases stage with
  | startTurn a =>
    have turn : (c.enters e).startQueue.head? = some call := by
      rw [enters_of_later later]
      exact beq_iff_eq.mp ready
    have gone := advance_takeTurn now (.inr ⟨deadline, there⟩) turn (unique_task? there rfl)
    rwa [enters_of_later later] at gone
  | handshake request a =>
    obtain ⟨outcome, settled⟩ := Option.isSome_iff_exists.mp ready
    exact advance_greeted there unwriting later settled
  | answer request method use =>
    obtain ⟨outcome, settled⟩ := Option.isSome_iff_exists.mp ready
    cases use with
    | candidatesOf uri =>
      change Advance now c call e (takeOutcome request _ (c, [])).2
      rw [takeOutcome_settled settled]
      let d : Client := { c with pending := c.pending.filter (·.id != request) }
      exact advance_closeDocument (d := d) there ⟨rfl, rfl, rfl, rfl, rfl, rfl⟩ unwriting
        (fun flows => flows.congr rfl rfl) _
    | _ => cases consulting
  | spawning a => cases ready
  | greeting a => cases ready
  | reading q => cases ready
  | opening q => cases ready
  | lastWrite outcome => cases ready
  | _ => cases consulting

theorem remains_setDeadline {t : CallTask} (booked : Booked c) (there : c.task? t.call = some t)
    (alike : d.tasks = c.tasks) (deadline : Option Int) :
    Remains t.call (some { t with deadline }) c (setDeadline t.call deadline d) := by
  intro u
  unfold setDeadline
  dsimp only
  rw [alike, List.mem_map, Option.mem_some_iff]
  constructor
  · rintro ⟨v, member, rfl⟩
    by_cases own : v.call = t.call
    · obtain rfl := booked.unique member (mem_of_task? there) own
      simp
    · simp [own, member]
  · rintro (rfl | ⟨member, apart⟩)
    · exact ⟨t, mem_of_task? there, by simp⟩
    · exact ⟨u, member, by simp [apart]⟩

theorem remains_still {t : CallTask} (booked : Booked c) (there : c.task? t.call = some t)
    (alike : d.tasks = c.tasks) : Remains t.call (some t) c d := by
  intro u
  rw [alike, Option.mem_some_iff]
  constructor
  · intro member
    by_cases own : u.call = t.call
    · exact .inl (booked.unique (mem_of_task? there) member own.symm)
    · exact .inr ⟨member, own⟩
  · rintro (rfl | ⟨member, _⟩)
    · exact mem_of_task? there
    · exact member

theorem slow_of_isWriting {writer : Writer} (writing : c.isWriting writer = true) : ¬ Flows c := by
  intro flows
  rw [flows.not_isWriting] at writing
  cases writing

/-- A call goes on with what it writes while it starts the server. -/
theorem advance_goOnStarting {t : CallTask} {sent : Sent} {after : World} (booked : Booked c)
    (there : c.task? t.call = some t) (starting : t.stage.isStarting = true)
    (writing : c.isWriting (.call t.call) = true) (turn : Turn t.call c sent after)
    (resumed : resumeWrite (.call t.call) (c, []) = (sent, after)) (later : e.begun? = none) :
    Advance now c t.call e (goOnWriting now t (c, [])).2 := by
  rw [goOnWriting_apply resumed]
  have queue := passed_of_later c t.call later
  have unwriting : t.stage.mayWrite = false → False := fun not => by
    rw [booked.idle there not] at writing
    cases writing
  have stays : ∀ writes, Stays t.call (some t) c (withWrites writes c) :=
    fun writes => ⟨rfl, remains_still (d := withWrites writes c) booked there rfl, rfl, rfl, rfl⟩
  obtain ⟨call, stage, deadline⟩ := t
  have fails : ∀ {f : Client} {outcome : Outcome}, c.isSevered = true → Calm call none c f →
      f.startQueue = c.startQueue.filter (· != call) →
      Advance now c call e (f, [.finish call outcome]) := fun severed calm passed =>
    .startFails _ (unique_task? there starting) (.unwritten writing severed) calm
      (passed.trans queue.symm) rfl
  have goesOn : Stage.hasTurn stage = true → ∀ {payload limit writes new},
      c.callWrite? call = some (.call call, payload, limit, true) →
      (withWrites writes c).callWrite? call = some (.call call, payload, limit, false) →
      Hands c payload true new → Advance now c call e (withWrites writes c, new) :=
    fun turn {payload limit writes new} before later hands => .drags (slow_of_isWriting writing)
      (.writes _ there turn deadline (stays writes) rfl payload limit true before
        (.inr ⟨rfl, later⟩) hands)
  cases stage with
  | startTurn a => exact (unwriting rfl).elim
  | spawning a => exact (unwriting rfl).elim
  | handshake request a =>
    cases turn with
    | done payload limit queued writes new before idle hands =>
      let waits := (c.limit? (.call call)).map (now + ·)
      exact .drags (slow_of_isWriting writing) (.writes _ there rfl waits
        ⟨rfl, remains_setDeadline (d := withWrites writes c) booked there rfl waits, rfl, rfl, rfl⟩
        rfl payload limit queued before (.inl ⟨idle, request, a, rfl⟩) hands)
    | failed fault writes idle unknown severed =>
      exact fails severed (calm_left rfl rfl rfl rfl rfl) rfl
    | waits payload limit writes new before later hands => exact goesOn rfl before later hands
  | greeting a =>
    cases turn with
    | done payload limit queued writes new before idle hands =>
      let told : World := ({ withWrites writes c with initialized := true }, new)
      obtain ⟨processes, current, initialized, passed, effects⟩ := started_keeps call a told
      exact .drags (slow_of_isWriting writing) (.greeted a deadline there
        (shifted_started (s := told) a rfl rfl) (passed.trans queue.symm) processes current
        initialized payload limit queued before new hands effects)
    | failed fault writes idle unknown severed =>
      exact fails severed (calm_left rfl rfl rfl rfl rfl) rfl
    | waits payload limit writes new before later hands => exact goesOn rfl before later hands
  | _ => cases starting

/-- A call goes on with what it writes about a document. -/
theorem advance_goOnHovering {t : CallTask} {sent : Sent} {after : World} (booked : Booked c)
    (there : c.task? t.call = some t) (hovering : t.stage.isHovering = true)
    (writing : c.isWriting (.call t.call) = true) (turn : Turn t.call c sent after)
    (resumed : resumeWrite (.call t.call) (c, []) = (sent, after)) :
    Advance now c t.call e (goOnWriting now t (c, [])).2 := by
  rw [goOnWriting_apply resumed]
  have slow := slow_of_isWriting writing
  have alike : ∀ writes, Alike c (withWrites writes c) :=
    fun writes => ⟨rfl, rfl, rfl, rfl, rfl, rfl⟩
  cases turn with
  | waits payload limit writes new before later hands =>
    have told : Tells (withWrites writes c) t := by
      unfold Tells
      rw [later]
      obtain ⟨call, stage, deadline⟩ := t
      cases stage <;> first | rfl | exact True.intro | cases hovering
    refine .drags slow (.dwells t there hovering (some t) ⟨⟨rfl, ?_, rfl, rfl, rfl⟩, ?_, rfl, ?_⟩)
    · exact remains_still (d := withWrites writes c) booked there rfl
    · rintro u ⟨⟩
      exact ⟨rfl, hovering, told⟩
    · exact fun process written member => (hands.wrote member).2
  | done payload limit queued writes new before idle hands =>
    have wrote : ∀ process written, Effect.write process written ∈ new →
        c.current = some process ∧ c.isReachable = true := fun _ _ member => (hands.wrote member).2
    obtain ⟨call, stage, deadline⟩ := t
    cases stage with
    | reading q =>
      rw [booked.idle there rfl] at writing
      cases writing
    | opening q =>
      obtain ⟨own, dwells⟩ := dwells_documentSent now (alike writes) idle wrote q none
      exact .drags slow (.dwells _ there rfl own dwells)
    | lastWrite outcome =>
      exact .drags slow (.dwells _ there rfl none (dwells_leave (alike writes) wrote outcome))
    | answer request method use =>
      let waits := (c.limit? (.call call)).map (now + ·)
      refine .drags slow (.dwells _ there hovering (some ⟨call, .answer request method use, waits⟩)
        ⟨⟨rfl, ?_, rfl, rfl, rfl⟩, ?_, rfl, wrote⟩)
      · exact remains_setDeadline (d := withWrites writes c) booked there rfl waits
      · rintro u ⟨⟩
        exact ⟨rfl, hovering, True.intro⟩
    | _ => cases hovering
  | failed fault writes idle unknown severed =>
    obtain ⟨call, stage, deadline⟩ := t
    cases stage with
    | reading q =>
      rw [booked.idle there rfl] at writing
      cases writing
    | opening q =>
      exact .drags slow (.dwells _ there rfl none (dwells_leave (alike writes) nothing_written _))
    | lastWrite outcome =>
      exact .drags slow (.dwells _ there rfl none (dwells_leave (alike writes) nothing_written _))
    | answer request method use =>
      cases use with
      | candidatesOf uri =>
        exact advance_closeDocument (d := (forget request (withWrites writes c, [])).2.1) there
          ⟨rfl, rfl, rfl, rfl, rfl, rfl⟩ idle (fun flows => absurd flows slow) _
      | _ => cases hovering
    | _ => cases hovering

theorem advance_expire {t : CallTask} (there : c.task? t.call = some t)
    (idle : c.isWriting (.call t.call) = false) (consulting : t.stage.isConsulting = true) :
    Advance now c t.call (.expired t.call) (expire t (c, [])).2 := by
  obtain ⟨call, stage, deadline⟩ := t
  have unasked : Stage.request? stage = none → c.moves (.expired call) = false := fun none => by
    simp [moves, there, none]
  cases stage with
  | startTurn a => exact .idle (unasked rfl) rfl
  | spawning a => exact .idle (unasked rfl) rfl
  | greeting a => exact .idle (unasked rfl) rfl
  | reading q => exact .idle (unasked rfl) rfl
  | opening q => exact .idle (unasked rfl) rfl
  | lastWrite outcome => exact .idle (unasked rfl) rfl
  | handshake request a =>
    exact .startFails _ (unique_task? there rfl) (.late rfl request a deadline there)
      (calm_left rfl rfl rfl rfl rfl) (passed_of_later c _ rfl).symm rfl
  | answer request method use =>
    cases use with
    | candidatesOf uri =>
      exact advance_closeDocument (d := (forget request (c, [])).2.1) there
        ⟨rfl, rfl, rfl, rfl, rfl, rfl⟩ (callWrite?_eq_none_iff.mpr idle)
        (fun flows => flows.congr rfl rfl) _
    | _ => cases consulting
  | _ => cases consulting

theorem advance_cancel {t : CallTask} (there : c.task? t.call = some t)
    (consulting : t.stage.isConsulting = true) (told : Tells c t) :
    Advance now c t.call (.cancelled t.call)
      (cancel t (unwrite (.call t.call) c, [])).2 := by
  obtain ⟨call, stage, deadline⟩ := t
  let d : Client := unwrite (.call call) c
  have alike : Alike c d := ⟨rfl, rfl, rfl, rfl, rfl, rfl⟩
  have starts : ∀ {f : Client}, Stage.isStarting stage = true → Calm call none c f →
      f.startQueue = c.startQueue.filter (· != call) →
      Advance now c call (.cancelled call) (f, [.finish call .cancelled]) :=
    fun starting calm passed => .startFails _ (unique_task? there starting) (.cancelled rfl) calm
      (passed.trans (passed_of_later c call rfl).symm) rfl
  have unsaid : (c.callWrite? call).isSome = true → Stage.isHovering stage = true →
      Advance now c call (.cancelled call) (leave call .cancelled (d, [])).2 := by
    intro writes hovering
    rw [isSome_callWrite?] at writes
    exact .drags (slow_of_isWriting writes) (.dwells _ there hovering none
      (dwells_leave alike nothing_written .cancelled))
  cases stage with
  | startTurn a => exact starts rfl (calm_left rfl rfl rfl rfl rfl) rfl
  | spawning a => exact starts rfl (calm_left rfl rfl rfl rfl rfl) rfl
  | greeting a => exact starts rfl (calm_left rfl rfl rfl rfl rfl) rfl
  | handshake request a => exact starts rfl (calm_left rfl rfl rfl rfl rfl) rfl
  | reading q =>
    exact .hoverFails _ there rfl (.inl rfl) _ (calm_left rfl rfl rfl rfl rfl) rfl rfl
  | opening q => exact unsaid (by simpa [Tells, Stage.Tells] using told) rfl
  | lastWrite outcome => exact unsaid (by simpa [Tells, Stage.Tells] using told) rfl
  | answer request method use =>
    cases use with
    | candidatesOf uri =>
      exact advance_closeDocument (d := (forget request (d, [])).2.1) there
        ⟨rfl, rfl, rfl, rfl, rfl, rfl⟩ (callWrite?_eq_none_iff.mpr (isWriting_unwrite _ _))
        (fun flows => (flows.unwrite _).congr rfl rfl) _
    | _ => cases consulting
  | _ => cases consulting

theorem advance_withTask {f : CallTask → Act Unit}
    (consulting : ∀ t ∈ c.tasks, t.stage.isConsulting = true)
    (unmoved : c.task? call = none → c.moves e = false)
    (goes : ∀ t, c.task? t.call = some t → t.stage.isConsulting = true → t.call = call →
      Advance now c t.call e (f t (c, [])).2) :
    Advance now c call e (withTask call f (c, [])).2 := by
  cases there : c.task? call with
  | none =>
    rw [withTask_of_none there]
    exact .idle (unmoved there) rfl
  | some t =>
    obtain rfl := task?_call there
    rw [withTask_of_some there]
    exact goes t there (consulting t (mem_of_task? there)) rfl

theorem advance_enqueue {a : AfterStart} (absent : c.task? call = none) :
    Advance now c call (.begin call a.call) (enqueue call a (c, [])).2 := by
  let e : Event := .begin call a.call
  have enqueues : enqueue call a (c, []) =
      (if (c.enters e).startQueue.head? == some call then takeTurn call a
        else wait call (.startTurn a) none) (c.enters e, []) := rfl
  rw [enqueues]
  cases turn : (c.enters e).startQueue.head? == some call with
  | true =>
    refine advance_takeTurn now (.inl rfl) (beq_iff_eq.mp turn) fun t there => ?_
    rw [absent] at there
    cases there
  | false =>
    exact .queues a rfl (beq_eq_false_iff_ne.mp turn) ⟨⟨rfl, rfl⟩, rfl, rfl, rfl⟩ rfl rfl rfl

theorem advance_ready {t : CallTask} (booked : Booked c) (there : c.task? t.call = some t)
    (consulting : t.stage.isConsulting = true) (ready : c.isReady t = true)
    (later : e.begun? = none) :
    Advance now c t.call e
      ((if c.isWriting (.call t.call) then goOnWriting now t else resume now t) (c, [])).2 := by
  cases writing : c.isWriting (.call t.call) with
  | false => exact advance_resume there writing consulting ready later
  | true =>
    unfold isReady at ready
    rw [writing, if_pos rfl] at ready
    obtain ⟨sent, after, turn, resumed⟩ := turn_cases booked.lined ready
    rcases Bool.or_eq_true_iff.mp consulting with starting | hovering
    · exact advance_goOnStarting booked there starting writing turn resumed later
    · exact advance_goOnHovering booked there hovering writing turn resumed

theorem advance_step (now : Int) (booked : Booked c)
    (consulting : ∀ t ∈ c.tasks, t.stage.isConsulting = true) (told : ∀ t ∈ c.tasks, Tells c t)
    (consults : e.isConsulting = true) (fresh : BeginsNew c e) (about : e.call? = some call) :
    Advance now c call e (step now c e) := by
  cases e with
  | begin number what =>
    obtain rfl := Option.some.inj about
    cases what with
    | start => exact advance_enqueue (a := .finish) (fresh number rfl)
    | hoverDocument q => exact advance_enqueue (a := .hover q) (fresh number rfl)
    | _ => cases consults
  | spawned number failure =>
    obtain rfl := Option.some.inj about
    refine advance_withTask consulting (fun none => by simp [moves, none])
      fun t there _ same => ?_
    obtain ⟨call, stage, deadline⟩ := t
    obtain rfl : call = number := same
    cases stage with
    | spawning a =>
      cases failure with
      | none => exact advance_greet there (callWrite?_eq_none_iff.mpr (booked.idle there rfl))
      | some reason =>
        exact .startFails _ (unique_task? there rfl) (.unspawned reason rfl)
          (calm_left rfl rfl rfl rfl rfl) (passed_of_later c _ rfl).symm rfl
    | _ => exact .idle (by simp [moves, there]) rfl
  | document number content =>
    obtain rfl := Option.some.inj about
    refine advance_withTask consulting (fun none => by simp [moves, none])
      fun t there _ same => ?_
    obtain ⟨call, stage, deadline⟩ := t
    obtain rfl : call = number := same
    cases stage with
    | reading q =>
      cases content with
      | ok content =>
        exact advance_hoverContent there (callWrite?_eq_none_iff.mpr (booked.idle there rfl))
          content
      | error fault =>
        exact .hoverFails _ there rfl (.inl rfl) _ (calm_left rfl rfl rfl rfl rfl) rfl rfl
    | _ => exact .idle (by simp [moves, there]) rfl
  | resume number =>
    obtain rfl := Option.some.inj about
    refine advance_withTask consulting (fun none => by simp [moves, none])
      fun t there consulting same => ?_
    rw [bind_apply, read_apply]
    dsimp only
    cases ready : c.isReady t with
    | true => exact advance_ready booked there consulting ready rfl
    | false => exact .idle (by simp [moves, ← same, there, ready]) rfl
  | expired number =>
    obtain rfl := Option.some.inj about
    refine advance_withTask consulting (fun none => by simp [moves, none])
      fun t there consulting same => ?_
    rw [bind_apply, read_apply]
    dsimp only
    cases writing : c.isWriting (.call t.call) with
    | true => exact .idle (by simp [moves, ← same, there, writing]) rfl
    | false => exact same ▸ advance_expire there writing consulting
  | cancelled number =>
    obtain rfl := Option.some.inj about
    refine advance_withTask consulting (fun none => by simp [moves, none])
      fun t there consulting same => ?_
    exact same ▸ advance_cancel there consulting (told t (mem_of_task? there))
  | _ => cases about

end

end Client

end TemplateTypes
