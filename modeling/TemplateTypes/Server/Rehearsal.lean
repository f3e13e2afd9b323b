import TemplateTypes.Hover.Document
import TemplateTypes.Server.Client

namespace TemplateTypes.Rehearsal

open Text

/-- What the server does. A member of a message with the text of `idMark` stands for the id of the
    message that is answered. -/
inductive Action
  | send (message : Json)
  | raw (bytes : Bytes)
  | exit

structure Cue where
  delay : Int
  action : Action

/-- For each method the reactions to its calls, the last one for all further calls. With a failure
    no process can be spawned. -/
structure Script where
  reactions : List (Text × List (List Cue))
  spawnFailure : Option Text

structure Scheduled where
  time : Int
  process : Nat
  id : Json
  cues : List Cue

structure State where
  client : Client
  now : Int
  -- How often each method has been called.
  counts : List (Text × Nat)
  scheduled : List Scheduled
  spawns : Nat
  kills : Nat
  sent : List Json
  finished : List (Nat × Outcome)

def State.ofSetup (setup : ServerSetup) : State := ⟨.ofSetup setup, 0, [], [], 0, 0, [], []⟩

def idMark : Text := "$id".toList

def fillId (id : Json) (message : Json) : Json :=
  match message with
  | .obj members =>
    .obj (("jsonrpc".toList, .text "2.0") :: members.map fun (name, value) =>
      (name, if value == .str idMark then id else value))
  | other => other

def reaction (script : Script) (s : State) (method : Text) : List Cue :=
  let turns := (script.reactions.lookup method).getD []
  (turns[(s.counts.lookup method).getD 0]?).getD (turns.getLast?.getD [])

def count (method : Text) : List (Text × Nat) → List (Text × Nat)
  | [] => [(method, 1)]
  | (m, n) :: more => if m == method then (m, n + 1) :: more else (m, n) :: count method more

def schedule (s : State) (process : Nat) (id : Json) : List Cue → List Scheduled
  | [] => []
  | cue :: more => [⟨s.now + cue.delay, process, id, cue :: more⟩]

def receive (script : Script) (s : State) (process : Nat) (payload : Json) : State :=
  let s := { s with sent := s.sent ++ [payload] }
  match payload.member? "method".toList with
  | some (.str method) =>
    let id := (payload.member? "id".toList).getD .null
    { s with
      scheduled := s.scheduled ++ schedule s process id (reaction script s method)
      counts := count method s.counts }
  | _ => s

def perform (script : Script) (files : FileTree) (s : State) : Effect → State × List Event
  | .spawn call => ({ s with spawns := s.spawns + 1 }, [.spawned call script.spawnFailure])
  | .readDocument call uri => (s, [.document call (Document.read files uri)])
  | .write process payload => (receive script s process payload, [])
  | .kill process =>
    ({ s with kills := s.kills + 1 }, [.exited process, .outputEnded process])
  | .finish call outcome => ({ s with finished := s.finished ++ [(call, outcome)] }, [])

def performAll (script : Script) (files : FileTree) (s : State) :
    List Effect → State × List Event
  | [] => (s, [])
  | effect :: more =>
    let (s, events) := perform script files s effect
    let (s, others) := performAll script files s more
    (s, events ++ others)

/-- Gives events to the client one after the other, and those that come of them. -/
def deliver (script : Script) (files : FileTree) : (fuel : Nat) → List Event → State → State
  | 0, _, s => s
  | _, [], s => s
  | fuel + 1, event :: more, s =>
    let (client, effects) := s.client.step s.now event
    let (s, events) := performAll script files { s with client } effects
    deliver script files fuel (more ++ events) s

def give (script : Script) (files : FileTree) (s : State) (events : List Event) : State :=
  deliver script files (8 * (events.length + 1)) events s

/-- What a process has put out, and whether it has exited after it. -/
structure Burst where
  process : Nat
  bytes : Bytes
  exits : Bool

def Burst.events (b : Burst) : List Event :=
  (if b.exits then [.exited b.process] else []) ++
    (if b.bytes.isEmpty then [] else [.output b.process b.bytes]) ++
    (if b.exits then [.outputEnded b.process] else [])

/-- Adds an action to the bursts; a process that has exited does nothing more. -/
def addAction (process : Nat) (id : Json) (action : Action) : List Burst → List Burst
  | [] => extend ⟨process, [], false⟩ :: []
  | b :: more =>
    if b.process == process then extend b :: more
    else b :: addAction process id action more
where
  extend (b : Burst) : Burst :=
    if b.exits then b
    else match action with
      | .send message => { b with bytes := b.bytes ++ Frame.encode (fillId id message) }
      | .raw bytes => { b with bytes := b.bytes ++ bytes }
      | .exit => { b with exits := true }

/-- Takes the cues that are due without further delay; the rest waits for its time. -/
def takeDue (item : Scheduled) (now : Int) : List Cue → List Burst → List Burst × List Scheduled
  | [], bursts => (bursts, [])
  | cue :: more, bursts =>
    let bursts := addAction item.process item.id cue.action bursts
    match more with
    | [] => (bursts, [])
    | next :: _ =>
      if next.delay ≤ 0 then takeDue item now more bursts
      else (bursts, [{ item with time := now + next.delay, cues := more }])

def burstsOf (now : Int) : List Scheduled → List Burst → List Burst × List Scheduled
  | [], bursts => (bursts, [])
  | item :: more, bursts =>
    if item.time ≤ now then
      let (bursts, rest) := takeDue item now item.cues bursts
      let (bursts, others) := burstsOf now more bursts
      (bursts, rest ++ others)
    else
      let (bursts, others) := burstsOf now more bursts
      (bursts, item :: others)

def fire (script : Script) (files : FileTree) (s : State) : State :=
  let (bursts, scheduled) := burstsOf s.now s.scheduled []
  let living := bursts.filter fun b => s.client.isAlive b.process
  give script files { s with scheduled } (living.flatMap Burst.events)

inductive Until
  | finished (call : Nat)
  | time (time : Int)

def reached (s : State) : Until → Bool
  | .finished call => s.finished.any (·.1 == call)
  | .time _ => false

def nextTime? (s : State) : Option Int :=
  (s.scheduled.map (·.time) ++ s.client.tasks.filterMap (·.deadline)).min?

def isLate (s : State) (t : CallTask) : Bool :=
  t.deadline.any (· ≤ s.now) && !s.client.isReady t

def proceed (script : Script) (files : FileTree) (goal : Until) : (fuel : Nat) → State → State
  | 0, s => s
  | fuel + 1, s =>
    match s.client.tasks.find? (isLate s) with
    | some t => proceed script files goal fuel (give script files s [.expired t.call])
    | none =>
      if s.scheduled.any (·.time ≤ s.now) then
        proceed script files goal fuel (fire script files s)
      else match s.client.tasks.find? s.client.isReady with
        | some t => proceed script files goal fuel (give script files s [.resume t.call])
        | none =>
          if reached s goal then s
          else match nextTime? s, goal with
            | none, .time time => { s with now := time }
            | none, .finished _ => s
            | some next, .time time =>
              if time < next then { s with now := time }
              else proceed script files goal fuel { s with now := next }
            | some next, .finished _ => proceed script files goal fuel { s with now := next }

/-- More rounds than a call can take: it writes only a few messages, each of which has one
    reaction. -/
def rounds (script : Script) (s : State) : Nat :=
  let longest := script.reactions.foldl (fun n entry =>
    entry.2.foldl (fun n cues => max n cues.length) n) 0
  let waiting := s.scheduled.foldl (fun n item => n + item.cues.length) 0
  64 + 32 * (longest + 1) + 4 * waiting

def pass (script : Script) (files : FileTree) (s : State) (duration : Int) : State :=
  proceed script files (.time (s.now + duration)) (rounds script s) s

def play (script : Script) (files : FileTree) (s : State) (call : Nat) (what : Call) : State :=
  let s := give script files s [.begin call what]
  proceed script files (.finished call) (rounds script s) s

def outcome? (s : State) (call : Nat) : Option Outcome := s.finished.lookup call

end TemplateTypes.Rehearsal
