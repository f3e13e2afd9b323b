import TemplateTypes.Server.Frame
import TemplateTypes.Server.Message

namespace TemplateTypes

open Text

/-- What callers ask the client for. Times are in microseconds. -/
inductive Call
  | start
  | request (method : Text) (params : Json) (timeout : Option Int)
  | notify (method : Text) (params : Json)
  -- Asks about a document that is open already.
  | hover (q : Question)
  -- Starts the server if need be, and opens the document for as long as it is asked about.
  | hoverDocument (q : Question)
  | shutDown

inductive Outcome
  | value (result : Json)
  | failed (fault : Fault)
  | cancelled

def Outcome.ofExcept : Except Fault Json → Outcome
  | .ok result => .value result
  | .error fault => .failed fault

/-- Whether a process takes what is written to it: at once, when it has room again, or never. -/
inductive Input
  | taking
  | full
  | lost (reason : Text)
  deriving DecidableEq

def Input.next : Input → Input → Input
  | .lost reason, _ => .lost reason
  | _, state => state

inductive Event
  | begin (call : Nat) (what : Call)
  -- A process has been spawned for a call, or could not be for the reason given.
  | spawned (call : Nat) (failure : Option Text)
  -- The text of the document that a call asks about.
  | document (call : Nat) (content : Except Fault Text)
  | output (process : Nat) (bytes : Bytes)
  | outputEnded (process : Nat)
  | exited (process : Nat)
  | input (process : Nat) (state : Input)
  -- A reader goes on with its reply.
  | readerResumed (process : Nat)
  -- A call goes on for which has happened what it waits for.
  | resume (call : Nat)
  -- A call has waited for as long as it may, and does not look whether it could go on by now.
  | expired (call : Nat)
  | cancelled (call : Nat)

inductive Effect
  | spawn (call : Nat)
  | readDocument (call : Nat) (uri : Text)
  | write (process : Nat) (payload : Json)
  | kill (process : Nat)
  | finish (call : Nat) (outcome : Outcome)

inductive ReaderState
  | reading
  | finished
  | crashed (fault : Fault)

structure ServerProcess where
  alive : Bool
  unread : Bytes
  outputEnded : Bool
  reader : ReaderState
  -- How many levels below its outermost one a message may nest.
  nesting : Nat
  input : Input

def ServerProcess.fresh (nesting : Nat) : ServerProcess :=
  ⟨true, [], false, .reading, nesting, .taking⟩

/-- A request that has been made and not been left yet; `outcome` is there once it is settled. -/
structure PendingRequest where
  id : Nat
  outcome : Option (Except Fault Json)

inductive AfterStart
  | finish
  | hover (q : Question)

inductive AnswerUse
  | whole
  | candidates
  -- As `candidates`, and the document is closed.
  | candidatesOf (uri : Text)

inductive Stage
  | startTurn (after : AfterStart)
  | spawning (after : AfterStart)
  | handshake (request : Nat) (after : AfterStart)
  | greeting (after : AfterStart)
  | reading (q : Question)
  | opening (q : Question)
  | answer (request : Nat) (method : Text) (use : AnswerUse)
  -- The call ends once it has written.
  | lastWrite (outcome : Outcome)
  | shutdownAnswer (request : Nat)
  | farewell
  | exit (process : Nat)
  | killedExit (process : Nat)
  | readerEnd (process : Nat)

/-- A call under way; it waits until the deadline if there is one. -/
structure CallTask where
  call : Nat
  stage : Stage
  deadline : Option Int

inductive Writer
  | call (call : Nat)
  | reader (process : Nat)
  deriving DecidableEq

/-- A write waits for its turn and then for the process to make room for it. When that is over its
    writer goes on, and with a reason why the process was lost the write has failed. -/
inductive Progress
  | queued
  | draining (process : Nat)
  | drained (lost : Option Text)

def Progress.next (process : Nat) (state : Input) : Progress → Progress
  | .draining p =>
    if p == process then
      match state with
      | .taking => .drained none
      | .full => .draining p
      | .lost reason => .drained (some reason)
    else .draining p
  | other => other

/-- A write that takes time. From its end on the call may wait for as long as the limit says. -/
structure Writing where
  writer : Writer
  payload : Json
  limit : Option Int
  progress : Progress

/-- The command to spawn, the directory it works on, how long an answer may take and how far one
    may nest. -/
structure ServerSetup where
  command : List Text
  root : Path
  processId : Nat
  requestTimeout : Int
  nesting : Nat

/-- `current` is the process that is written to and `reader` the one whose output is waited for at
    the end. The first call in `startQueue` is the one that starts the server, and the first of the
    writes keeps the others waiting. -/
structure Client where
  setup : ServerSetup
  processes : List ServerProcess
  current : Option Nat
  reader : Option Nat
  lastRequest : Nat
  initialized : Bool
  pending : List PendingRequest
  startQueue : List Nat
  writes : List Writing
  tasks : List CallTask

namespace Client

def ofSetup (setup : ServerSetup) : Client := ⟨setup, [], none, none, 0, false, [], [], [], []⟩

def isAlive (c : Client) (process : Nat) : Bool := (c.processes[process]?).any (·.alive)

def isRunning (c : Client) : Bool := c.current.any c.isAlive

def outcome? (c : Client) (request : Nat) : Option (Except Fault Json) :=
  (c.pending.find? (·.id == request)).bind (·.outcome)

def task? (c : Client) (call : Nat) : Option CallTask := c.tasks.find? (·.call == call)

def setProcess (c : Client) (process : Nat) (p : ServerProcess) : Client :=
  { c with processes := c.processes.set process p }

def readerState? (c : Client) (process : Nat) : Option ReaderState :=
  (c.processes[process]?).map (·.reader)

def isWriting (c : Client) (writer : Writer) : Bool := c.writes.any (·.writer == writer)

/-- The writer has the first write, and it is not a process that keeps it waiting. -/
def canWrite (c : Client) (writer : Writer) : Bool :=
  match c.writes with
  | [] | ⟨_, _, _, .draining _⟩ :: _ => false
  | w :: _ => w.writer == writer

def isReady (c : Client) (t : CallTask) : Bool :=
  if c.isWriting (.call t.call) then c.canWrite (.call t.call)
  else match t.stage with
  | .startTurn _ => c.startQueue.head? == some t.call
  | .spawning _ | .greeting _ | .reading _ | .opening _ | .lastWrite _ | .farewell => false
  | .handshake request _ | .answer request _ _ | .shutdownAnswer request =>
    (c.outcome? request).isSome
  | .exit process | .killedExit process => !c.isAlive process
  | .readerEnd process =>
    match c.readerState? process with
    | some .reading => false
    | _ => true

abbrev Act := StateM (Client × List Effect)

def read : Act Client := return (← get).1

def update (f : Client → Client) : Act Unit := modify fun (c, effects) => (f c, effects)

def emit (e : Effect) : Act Unit := modify fun (c, effects) => (c, effects ++ [e])

/-- A process that is no longer known has nothing that could be looked up. -/
def noProcess (name : String) : Fault :=
  ⟨"AttributeError".toList, ("'NoneType' object has no attribute '" ++ name ++ "'").toList, none⟩

inductive WriteError
  | notRunning
  | unknownProcess
  | lost (reason : Text)

def WriteError.fault : WriteError → Fault
  | .notRunning => .queryFailure "Language server is not running".toList
  | .unknownProcess => noProcess "stdin"
  | .lost reason => .queryFailure ("Language server connection lost: ".toList ++ reason)

/-- What comes of writing: it is done, it fails, or the writer has to wait. -/
inductive Sent
  | done
  | failed (e : WriteError)
  | waits

def input (c : Client) (process : Nat) : Input :=
  match c.processes[process]? with
  | some p => if p.alive then p.input else .lost []
  | none => .lost []

/-- Writes to the current process for a writer that has its turn. -/
def put (writer : Writer) (payload : Json) (limit : Option Int) : Act Sent := do
  let c ← read
  match c.current with
  | none => return .failed .unknownProcess
  | some process =>
    match c.input process with
    | .lost _ => return .failed (.lost "Connection lost".toList)
    | .taking =>
      emit (.write process payload)
      return .done
    | .full =>
      update fun c => { c with writes := ⟨writer, payload, limit, .draining process⟩ :: c.writes }
      emit (.write process payload)
      return .waits

def send (writer : Writer) (payload : Json) (limit : Option Int) : Act Sent := do
  let c ← read
  if c.current.isNone then return .failed .notRunning
  else if c.writes.isEmpty then put writer payload limit
  else
    update fun c => { c with writes := c.writes ++ [⟨writer, payload, limit, .queued⟩] }
    return .waits

/-- Goes on with a write that has taken time. -/
def resumeWrite (writer : Writer) : Act Sent := do
  let c ← read
  match c.canWrite writer, c.writes with
  | true, w :: more =>
    update fun c => { c with writes := more }
    match w.progress with
    | .drained none => return .done
    | .drained (some reason) => return .failed (.lost reason)
    | _ => put writer w.payload w.limit
  | _, _ => return .waits

def unwrite (writer : Writer) (c : Client) : Client :=
  { c with writes := c.writes.filter (·.writer != writer) }

def limit? (c : Client) (writer : Writer) : Option Int :=
  (c.writes.find? (·.writer == writer)).bind (·.limit)

def withoutTask (call : Nat) (c : Client) : Client :=
  { c with tasks := c.tasks.filter (·.call != call) }

def wait (call : Nat) (stage : Stage) (deadline : Option Int) : Act Unit :=
  update fun c => { withoutTask call c with
    tasks := (withoutTask call c).tasks ++ [⟨call, stage, deadline⟩] }

def leave (call : Nat) (outcome : Outcome) : Act Unit := do
  update (withoutTask call)
  emit (.finish call outcome)

def forget (request : Nat) : Act Unit :=
  update fun c => { c with pending := c.pending.filter (·.id != request) }

/-- Writes for a call and goes on with what comes of it. If that takes time, the call waits at the
    stage meanwhile. -/
def sendThen (call : Nat) (stage : Stage) (limit : Option Int) (payload : Json)
    (next : Option WriteError → Act Unit) : Act Unit := do
  match ← send (.call call) payload limit with
  | .done => next none
  | .failed e => next (some e)
  | .waits => wait call stage none

def ask (now : Int) (call : Nat) (stage : Nat → Stage) (limit : Int) (method : Text)
    (params : Json) (refused : WriteError → Act Unit) : Act Unit := do
  let request := (← read).lastRequest + 1
  update fun c => { c with lastRequest := request, pending := c.pending ++ [⟨request, none⟩] }
  sendThen call (stage request) (some limit) (Message.request request method params) fun
    | none => wait call (stage request) (some (now + limit))
    | some e => do
      forget request
      refused e

def settle (request : Nat) (outcome : Except Fault Json) (c : Client) : Client :=
  { c with pending := c.pending.map fun p =>
      if p.id == request && p.outcome.isNone then ⟨p.id, some outcome⟩ else p }

def exitFault : Fault := .queryFailure "Language server exited".toList

def endReader (process : Nat) (state : ReaderState) : Act Unit :=
  update fun c =>
    let c := match c.processes[process]? with
      | some p => c.setProcess process { p with reader := state }
      | none => c
    { c with
      initialized := false
      pending := c.pending.map fun p =>
        if p.outcome.isNone then ⟨p.id, some (.error exitFault)⟩ else p }

/-- How a fault of the stream ends the reader: a header beyond the limit crashes it, and so does a
    body that nests too deep. -/
def readerEnd (e : FrameError) : ReaderState :=
  match e with
  | .unendingHeader | .longHeader => .crashed ⟨"LimitOverrunError".toList, e.message, none⟩
  | .invalidJson (.tooDeep _) => .crashed ⟨"RecursionError".toList, e.message, none⟩
  | _ => .finished

def isUnsettled (c : Client) (request : Nat) : Bool :=
  c.pending.any fun p => p.id == request && p.outcome.isNone

def replyEnd : WriteError → ReaderState
  | .unknownProcess => .crashed (noProcess "stdin")
  | _ => .finished

/-- Does what a message asks for. The state in which the reader ends is given if it does. -/
def handle (process : Nat) (payload : Json) : Act (Option ReaderState) := do
  match Message.meaning payload with
  | .error fault => return some (.crashed fault)
  | .ok .nothing => return none
  | .ok (.question id) =>
    match ← send (.reader process) (Message.reply id) none with
    | .failed e => return some (replyEnd e)
    | _ => return none
  | .ok (.response id error result) =>
    match id with
    | some (.ofNat request) =>
      if (← read).isUnsettled request then
        match Message.responseOutcome error result with
        | .error fault => return some (.crashed fault)
        | .ok outcome =>
          update (settle request outcome)
          return none
      else return none
    | _ => return none

/-- Reads the messages that have arrived, at most `fuel` of them, as long as no reply has to wait. -/
def readMessages (process : Nat) : (fuel : Nat) → Act Unit
  | 0 => pure ()
  | fuel + 1 => do
    let c ← read
    if c.isWriting (.reader process) then pure ()
    else match c.processes[process]? with
    | some ⟨alive, unread, outputEnded, .reading, nesting, input⟩ =>
      match Frame.next nesting unread outputEnded with
      | .wait => pure ()
      | .ended | .message .null _ => endReader process .finished
      | .failed e _ => endReader process (readerEnd e)
      | .message payload rest =>
        update fun c => c.setProcess process ⟨alive, rest, outputEnded, .reading, nesting, input⟩
        match ← handle process payload with
        | some state => endReader process state
        | none => readMessages process fuel
    | _ => pure ()

def readOutput (process : Nat) : Act Unit := do
  match (← read).processes[process]? with
  | some p => readMessages process (p.unread.length + 1)
  | none => pure ()

def passTurn (call : Nat) : Act Unit :=
  update fun c => { c with startQueue := c.startQueue.filter (· != call) }

def started (call : Nat) (after : AfterStart) : Act Unit := do
  passTurn call
  match after with
  | .finish => leave call (.value .null)
  | .hover q =>
    wait call (.reading q) none
    emit (.readDocument call q.uri)

def startFailed (call : Nat) (fault : Fault) : Act Unit := do
  passTurn call
  leave call (.failed fault)

def takeTurn (call : Nat) (after : AfterStart) : Act Unit := do
  let c ← read
  if c.initialized && c.isRunning then started call after
  else if c.setup.command.isEmpty then
    startFailed call (.queryFailure "No language server command configured".toList)
  else
    wait call (.spawning after) none
    emit (.spawn call)

def enqueue (call : Nat) (after : AfterStart) : Act Unit := do
  update fun c => { c with startQueue := c.startQueue ++ [call] }
  if (← read).startQueue.head? == some call then takeTurn call after
  else wait call (.startTurn after) none

def greet (now : Int) (call : Nat) (after : AfterStart) : Act Unit := do
  update fun c => { c with
    processes := c.processes ++ [.fresh c.setup.nesting]
    current := some c.processes.length
    reader := some c.processes.length }
  let setup := (← read).setup
  ask now call (.handshake · after) setup.requestTimeout Message.initializeMethod
    (Message.initializeParams setup.processId setup.root) fun e => startFailed call e.fault

def spawnFault (setup : ServerSetup) (reason : Text) : Fault :=
  .queryFailure ("Cannot start language server ".toList ++ setup.command.headD [] ++
    ": ".toList ++ reason)

def greetingSent (call : Nat) (after : AfterStart) : Option WriteError → Act Unit
  | none => do
    update fun c => { c with initialized := true }
    started call after
  | some e => startFailed call e.fault

/-- The server has answered the greeting. -/
def greeted (call : Nat) (after : AfterStart) : Except Fault Json → Act Unit
  | .error fault => startFailed call fault
  | .ok _ =>
    sendThen call (.greeting after) none (Message.notification "initialized".toList (.obj []))
      (greetingSent call after)

def lastSent (call : Nat) (outcome : Outcome) : Option WriteError → Act Unit
  | none => leave call outcome
  | some e => leave call (.failed e.fault)

/-- The call ends with a message and, if it can be written, with the outcome. -/
def finishWriting (call : Nat) (payload : Json) (outcome : Outcome) : Act Unit :=
  sendThen call (.lastWrite outcome) none payload (lastSent call outcome)

def closeDocument (call : Nat) (uri : Text) (outcome : Outcome) : Act Unit :=
  finishWriting call (Message.notification Message.closeMethod (Message.documentParams uri)) outcome

def finishAnswer (call : Nat) (use : AnswerUse) (outcome : Except Fault Json) : Act Unit :=
  match use with
  | .whole => leave call (.ofExcept outcome)
  | .candidates => leave call (.ofExcept (outcome.bind Message.hoverCandidates))
  | .candidatesOf uri => closeDocument call uri (.ofExcept (outcome.bind Message.hoverCandidates))

def timeLimit (setup : ServerSetup) (timeout : Option Int) : Int :=
  match timeout with
  | none => setup.requestTimeout
  | some limit => if limit = 0 then setup.requestTimeout else limit

def request (now : Int) (call : Nat) (method : Text) (params : Json) (timeout : Option Int)
    (use : AnswerUse) : Act Unit := do
  ask now call (.answer · method use) (timeLimit (← read).setup timeout) method params fun e =>
    finishAnswer call use (.error e.fault)

def notify (call : Nat) (method : Text) (params : Json) : Act Unit :=
  finishWriting call (Message.notification method params) (.value .null)

def documentSent (now : Int) (call : Nat) (q : Question) : Option WriteError → Act Unit
  | none => request now call Message.hoverMethod (Message.hoverParams q) none (.candidatesOf q.uri)
  | some e => leave call (.failed e.fault)

def hoverContent (now : Int) (call : Nat) (q : Question) (content : Text) : Act Unit :=
  sendThen call (.opening q) none
    (Message.notification Message.openMethod (Message.openParams q.uri "typescript".toList content))
    (documentSent now call q)

def patience : Int := 2000000

def forgetProcess (call : Nat) : Act Unit := do
  update fun c => { c with current := none, reader := none, initialized := false }
  leave call (.value .null)

/-- Ends the reader and waits for its end; what it crashed with is the call's failure. -/
def stopReader (call : Nat) : Act Unit := do
  let c ← read
  match c.reader with
  | none => forgetProcess call
  | some process =>
    match c.readerState? process with
    | some .reading =>
      update (unwrite (.reader process))
      endReader process .finished
      wait call (.readerEnd process) none
    | some (.crashed fault) => leave call (.failed fault)
    | _ => forgetProcess call

def kill (call : Nat) : Act Unit := do
  let c ← read
  match c.current with
  | none => leave call (.failed (noProcess "returncode"))
  | some process =>
    if c.isAlive process then
      wait call (.killedExit process) none
      emit (.kill process)
    else stopReader call

/-- The server cannot be told to shut down. -/
def untold (call : Nat) : WriteError → Act Unit
  | .unknownProcess => leave call (.failed (noProcess "stdin"))
  | _ => kill call

def farewellSent (now : Int) (call : Nat) : Option WriteError → Act Unit
  | some e => untold call e
  | none => do
    match (← read).current with
    | none => leave call (.failed (noProcess "wait"))
    | some process => wait call (.exit process) (some (now + patience))

/-- The server has answered the request to shut down and is told to exit. -/
def farewell (now : Int) (call : Nat) : Except Fault Json → Act Unit
  | .error _ => kill call
  | .ok _ =>
    sendThen call .farewell none (Message.notification "exit".toList (.obj []))
      (farewellSent now call)

def shutDown (now : Int) (call : Nat) : Act Unit := do
  let c ← read
  if c.current.isNone then leave call (.value .null)
  else if c.isRunning then
    ask now call .shutdownAnswer patience "shutdown".toList (.obj []) (untold call)
  else stopReader call

def beginCall (now : Int) (call : Nat) : Call → Act Unit
  | .start => enqueue call .finish
  | .request method params timeout => request now call method params timeout .whole
  | .notify method params => notify call method params
  | .hover q => request now call Message.hoverMethod (Message.hoverParams q) none .candidates
  | .hoverDocument q => enqueue call (.hover q)
  | .shutDown => shutDown now call

def takeOutcome (request : Nat) (next : Except Fault Json → Act Unit) : Act Unit := do
  match (← read).outcome? request with
  | none => pure ()
  | some outcome =>
    forget request
    next outcome

def resume (now : Int) (t : CallTask) : Act Unit :=
  match t.stage with
  | .startTurn after => takeTurn t.call after
  | .spawning _ | .greeting _ | .reading _ | .opening _ | .lastWrite _ | .farewell => pure ()
  | .handshake request after => takeOutcome request (greeted t.call after)
  | .answer request _ use => takeOutcome request (finishAnswer t.call use)
  | .shutdownAnswer request => takeOutcome request (farewell now t.call)
  | .exit _ | .killedExit _ => stopReader t.call
  | .readerEnd _ => forgetProcess t.call

def setDeadline (call : Nat) (deadline : Option Int) (c : Client) : Client :=
  { c with tasks := c.tasks.map fun t => if t.call == call then { t with deadline } else t }

/-- What a call does once its write is over. -/
def wrote (now : Int) (t : CallTask) (limit : Option Int) (failure : Option WriteError) : Act Unit :=
  match t.stage, failure with
  | .greeting after, _ => greetingSent t.call after failure
  | .opening q, _ => documentSent now t.call q failure
  | .lastWrite outcome, _ => lastSent t.call outcome failure
  | .farewell, _ => farewellSent now t.call failure
  | .handshake request _, some e => do
    forget request
    startFailed t.call e.fault
  | .answer request _ use, some e => do
    forget request
    finishAnswer t.call use (.error e.fault)
  | .shutdownAnswer request, some e => do
    forget request
    untold t.call e
  | .handshake _ _, none | .answer _ _ _, none | .shutdownAnswer _, none =>
    update (setDeadline t.call (limit.map (now + ·)))
  | _, _ => pure ()

def goOnWriting (now : Int) (t : CallTask) : Act Unit := do
  let limit := (← read).limit? (.call t.call)
  match ← resumeWrite (.call t.call) with
  | .done => wrote now t limit none
  | .failed e => wrote now t limit (some e)
  | .waits => pure ()

def lateFault (method : Text) : Fault :=
  .queryTimeout ("Language server did not answer ".toList ++ method)

def expire (t : CallTask) : Act Unit := do
  match t.stage with
  | .handshake request _ =>
    forget request
    startFailed t.call (lateFault Message.initializeMethod)
  | .answer request method use =>
    forget request
    finishAnswer t.call use (.error (lateFault method))
  | .shutdownAnswer request =>
    forget request
    kill t.call
  | .exit _ => kill t.call
  | _ => pure ()

def cancel (t : CallTask) : Act Unit := do
  match t.stage with
  | .startTurn _ | .spawning _ | .greeting _ =>
    passTurn t.call
    leave t.call .cancelled
  | .handshake request _ =>
    forget request
    passTurn t.call
    leave t.call .cancelled
  | .answer request _ (.candidatesOf uri) =>
    forget request
    closeDocument t.call uri .cancelled
  | .answer request _ _ | .shutdownAnswer request =>
    forget request
    leave t.call .cancelled
  | .reading _ | .opening _ | .lastWrite _ | .farewell | .exit _ | .killedExit _ =>
    leave t.call .cancelled
  | .readerEnd _ => forgetProcess t.call

def goOnReading (process : Nat) : Sent → Act Unit
  | .done => readOutput process
  | .failed e => endReader process (replyEnd e)
  | .waits => pure ()

def wake (process : Nat) (state : Input) (c : Client) : Client :=
  { c with writes := c.writes.map fun w => { w with progress := w.progress.next process state } }

def withTask (call : Nat) (f : CallTask → Act Unit) : Act Unit := do
  match (← read).task? call with
  | some t => f t
  | none => pure ()

def take (now : Int) : Event → Act Unit
  | .begin call what => beginCall now call what
  | .spawned call failure => withTask call fun t => do
    match t.stage, failure with
    | .spawning after, none => greet now call after
    | .spawning _, some reason => startFailed call (spawnFault (← read).setup reason)
    | _, _ => pure ()
  | .document call content => withTask call fun t => do
    match t.stage, content with
    | .reading q, .ok content => hoverContent now call q content
    | .reading _, .error fault => leave call (.failed fault)
    | _, _ => pure ()
  | .output process bytes => do
    update fun c => match c.processes[process]? with
      | some p => c.setProcess process { p with unread := p.unread ++ bytes }
      | none => c
    readOutput process
  | .outputEnded process => do
    update fun c => match c.processes[process]? with
      | some p => c.setProcess process { p with outputEnded := true }
      | none => c
    readOutput process
  | .exited process =>
    update fun c => match c.processes[process]? with
      | some p => c.setProcess process { p with alive := false }
      | none => c
  | .input process state => do
    update fun c => match c.processes[process]? with
      | some p => c.setProcess process { p with input := p.input.next state }
      | none => c
    update (wake process state)
  | .readerResumed process => do goOnReading process (← resumeWrite (.reader process))
  | .resume call => withTask call fun t => do
    let c ← read
    if c.isReady t then
      if c.isWriting (.call t.call) then goOnWriting now t else resume now t
  | .expired call => withTask call fun t => do
    unless (← read).isWriting (.call t.call) do expire t
  | .cancelled call => withTask call fun t => do
    update (unwrite (.call t.call))
    cancel t

def step (now : Int) (c : Client) (e : Event) : Client × List Effect :=
  ((take now e).run (c, [])).2

end Client

end TemplateTypes
