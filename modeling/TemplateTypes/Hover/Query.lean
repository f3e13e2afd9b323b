import TemplateTypes.Files.Tree
import TemplateTypes.Hover.Fault
import TemplateTypes.Json.Display
import TemplateTypes.Markdown.Fence
import TemplateTypes.Probe.Component

namespace TemplateTypes

open Text

structure Question where
  uri : Text
  position : Position
  deriving DecidableEq, Repr

inductive Answer
  -- Nothing came in time.
  | late
  -- The one who asked was told to stop.
  | interrupted
  | inTime (elapsed : Nat) (outcome : Except Fault (Option (List Json)))

inductive CallEnd
  | result (outcome : Except Fault (Option (List Json)))
  -- The one who asked is told to stop while the call is still running.
  | interrupted

def CallEnd.answer (time : Nat) : CallEnd → Answer
  | .result outcome => .inTime time outcome
  | .interrupted => .interrupted

/-- A call of an oracle: what it has come to by each millisecond, if to anything. -/
def HoverCall := Nat → Option CallEnd

/-- The race of a call with its deadline, from one millisecond to the next for as many as are
    left. -/
def HoverCall.await (call : HoverCall) (time : Nat) : (left : Nat) → Answer
  | 0 => .late
  | left + 1 =>
    match call time with
    | some ended => ended.answer time
    | none => call.await (time + 1) left

/-- An oracle with its state. It sees the files, a question starts a call, and in which state that
    leaves the oracle can depend on the deadline, at which the call is given up. -/
structure Oracle (σ : Type) where
  call : σ → FileTree → Question → HoverCall
  after : σ → FileTree → Question → (deadline : Nat) → σ

def Oracle.ask {σ : Type} (oracle : Oracle σ) (s : σ) (files : FileTree) (q : Question)
    (deadline : Nat) : Answer × σ :=
  ((oracle.call s files q).await 0 deadline, oracle.after s files q deadline)

structure Reply where
  delay : Option Nat
  outcome : Except Fault (Option (List Json))

def Reply.call (r : Reply) : HoverCall := fun time =>
  match r.delay with
  | none => none
  | some delay => if delay ≤ time then some (.result r.outcome) else none

def Oracle.replying (r : Reply) : Oracle Unit where
  call _ _ _ := r.call
  after _ _ _ _ := ()

/-- The result of a query: the candidate taken, or why there is none. All candidates that hold
    anything are kept. -/
inductive HoverResult
  | found (selected : Text) (candidates : List Json)
  | missed (message : Text) (code : IssueCode) (candidates : List Json)

inductive Stop
  | interrupted
  | failed (fault : Fault)

structure QueryClient where
  defaultTimeoutMs : Int
  tags : List Text

namespace QueryClient

def minTimeoutMs : Int := 100

def maxTimeoutMs : Int := 10000

def typeScriptTags : List Text := ["typescript".toList, "ts".toList]

def timeout (client : QueryClient) (requested : Option Int) : Nat :=
  (min (max (requested.getD client.defaultTimeoutMs) minTimeoutMs) maxTimeoutMs).toNat

/-- The first candidate with a tagged block. A candidate that holds something other than text is
    an error when it is reached. -/
def select (tags : List Text) : List Json → Except Fault (Option Text)
  | [] => .ok none
  | candidate :: more =>
    match candidate with
    | .str t => if Markdown.hasTaggedFence tags t then .ok (some t) else select tags more
    | other =>
      if other.holds then
        .error (.wrongKind ("expected string or bytes-like object, got '".toList ++
          other.kindName ++ "'".toList))
      else select tags more

def timeoutMessage (deadline : Nat) : Text :=
  "Hover request timeout after ".toList ++ ofNat deadline ++ "ms".toList

def judge (tags : List Text) (candidates : List Json) : Except Fault HoverResult :=
  if candidates.isEmpty then
    .ok (.missed "No hover information found".toList .queryFailure [])
  else
    match select tags candidates with
    | .error fault => .error fault
    | .ok none =>
      .ok (.missed "No hover from a TypeScript analyzer".toList .queryFailure candidates)
    | .ok (some selected) => .ok (.found selected candidates)

def conclude (tags : List Text) (deadline : Nat) : Answer → Except Stop HoverResult
  | .late => .ok (.missed (timeoutMessage deadline) .queryTimeout [])
  | .interrupted => .error .interrupted
  | .inTime _ (.error fault) =>
    .ok (.missed fault.summary (fault.code.getD .queryFailure) [])
  | .inTime _ (.ok candidates) =>
    match judge tags ((candidates.getD []).filter Json.holds) with
    | .ok result => .ok result
    | .error fault => .error (.failed fault)

def elapsed (deadline : Nat) : Answer → Nat
  | .inTime elapsed _ => elapsed
  | _ => deadline

structure Queried (σ : Type) where
  result : Except Stop HoverResult
  elapsedMs : Nat
  oracle : σ

def queryAt {σ : Type} (client : QueryClient) (oracle : Oracle σ) (s : σ) (files : FileTree)
    (uri : Text) (position : Position) (timeoutMs : Option Int) : Queried σ :=
  let deadline := client.timeout timeoutMs
  let (answer, s) := oracle.ask s files ⟨uri, position⟩ deadline
  ⟨conclude client.tags deadline answer, elapsed deadline answer, s⟩

/-- Asks about the first occurrence of an expression at or after an offset of the template. -/
def queryFor {σ : Type} (client : QueryClient) (oracle : Oracle σ) (s : σ) (files : FileTree)
    (artifact : Artifact) (expression : Text) (offset : Int) (timeoutMs : Option Int) :
    Queried σ :=
  let start := artifact.templateOffset + offset.toNat
  let found := if expression.isEmpty then none else findFrom? expression artifact.content start
  match found with
  | none =>
    ⟨.ok (.missed ("Expression not found in template: ".toList ++ expression) .queryFailure []),
      0, s⟩
  | some i =>
    client.queryAt oracle s files artifact.uri (.ofOffset artifact.content i) timeoutMs

end QueryClient

end TemplateTypes
