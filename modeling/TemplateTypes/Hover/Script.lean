import TemplateTypes.Hover.Document
import TemplateTypes.Hover.Query

namespace TemplateTypes.Script

open Text

structure Turn where
  delay : Nat
  outcome : Except Fault (Option (List Json))
  -- The call fails instead of being cancelled.
  survivesCancel : Bool

def Turn.empty : Turn := ⟨0, .ok (some []), false⟩

inductive Leaf
  -- One turn per call, the last one for all further calls.
  | turns (turns : List Turn)
  -- The turn for the word at the position asked about.
  | words (table : List (Text × Turn))

structure Call where
  question : Question
  word : Option Text

structure Log where
  calls : List Call
  contents : List Text

def Log.empty : Log := ⟨[], []⟩

/-- A composite's remaining oracles and when the next one is asked. -/
structure Pending where
  time : Nat
  question : Question
  leaves : List Nat

structure State where
  now : Nat
  logs : List Log
  pending : List Pending

/-- Oracles in the order asked; a composite keeps failures to itself. -/
structure Oracles where
  leaves : List Leaf
  composite : Bool

def Oracles.start (o : Oracles) : State := ⟨0, o.leaves.map fun _ => .empty, []⟩

def isNameChar (c : Char) : Bool := c.isAlphanum || c == '_' || c == '$'

def wordAt (document : Text) (p : Position) : Text :=
  match (pieces '\n' document)[p.line]? with
  | none => []
  | some line =>
    match line.drop p.column.toNat with
    | c :: rest =>
      if c.isDigit || !isNameChar c then [] else c :: rest.takeWhile isNameChar
    | [] => []

def turnAt (turns : List Turn) (n : Nat) : Turn :=
  (turns[n]?).getD (turns.getLast?.getD .empty)

def Leaf.call (leaf : Leaf) (log : Log) (files : FileTree) (q : Question) : Turn × Log :=
  match leaf with
  | .turns list =>
    (turnAt list log.calls.length, { log with calls := log.calls ++ [⟨q, none⟩] })
  | .words table =>
    match Document.read files q.uri with
    | .error fault => (⟨0, .error fault, false⟩, log)
    | .ok document =>
      let word := wordAt document q.position
      let contents :=
        if log.contents.contains document then log.contents else log.contents ++ [document]
      ((table.lookup word).getD .empty, ⟨log.calls ++ [⟨q, some word⟩], contents⟩)

def callLeaf (o : Oracles) (s : State) (files : FileTree) (q : Question) (index : Nat) :
    Turn × State :=
  match o.leaves[index]?, s.logs[index]? with
  | some leaf, some log =>
    let (turn, log) := leaf.call log files q
    (turn, { s with logs := s.logs.set index log })
  | _, _ => (.empty, s)

def earliest? : List Pending → Option (Pending × List Pending)
  | [] => none
  | p :: more =>
    match earliest? more with
    | none => some (p, [])
    | some (q, others) => if p.time ≤ q.time then some (p, more) else some (q, p :: others)

/-- Lets unattended composites go on up to a time; at most `fuel` oracles are asked. -/
def catchUp (o : Oracles) (files : FileTree) (until_ : Nat) : (fuel : Nat) → State → State
  | 0, s => s
  | fuel + 1, s =>
    match earliest? s.pending with
    | none => s
    | some (p, others) =>
      if until_ < p.time then s
      else match p.leaves with
        | [] => catchUp o files until_ fuel { s with pending := others }
        | index :: leaves =>
          let (turn, s) := callLeaf o { s with pending := others } files p.question index
          let next : Pending := ⟨p.time + turn.delay, p.question, leaves⟩
          catchUp o files until_ fuel
            (if leaves.isEmpty then s else { s with pending := s.pending ++ [next] })

def State.settle (o : Oracles) (files : FileTree) (s : State) (until_ : Nat) : State :=
  catchUp o files until_ (s.pending.foldl (fun n p => n + p.leaves.length + 1) 0) s

/-- Asks the leaves of a composite one after the other, the first of them at `time`, and gives the
    time at which all have answered with what they have found. -/
def askAll (o : Oracles) (files : FileTree) (q : Question) (time : Nat) (found : List Json) :
    List Nat → State → Nat × List Json
  | [], _ => (time, found)
  | index :: more, s =>
    let (turn, s) := callLeaf o (s.settle o files time) files q index
    let gained := match turn.outcome with
      | .ok (some candidates) => candidates
      | _ => []
    askAll o files q (time + turn.delay) (found ++ gained) more s

/-- The state in which the leaves of a composite are left that is given up at `deadline`. -/
def leaveAll (o : Oracles) (files : FileTree) (q : Question) (deadline : Nat) (time : Nat) :
    List Nat → State → State
  | [], s => { s with now := time }
  | index :: more, s =>
    let (turn, s) := callLeaf o (s.settle o files time) files q index
    let time := time + turn.delay
    if deadline ≤ time then
      let s := s.settle o files deadline
      let pending :=
        if turn.survivesCancel && !more.isEmpty then s.pending ++ [⟨deadline, q, more⟩]
        else s.pending
      { s with now := deadline, pending }
    else leaveAll o files q deadline time more s

def oracle (o : Oracles) : Oracle State where
  call s files q :=
    if o.composite then
      let (time, found) := askAll o files q s.now [] (List.range o.leaves.length) s
      Reply.call ⟨some (time - s.now), .ok (some found)⟩
    else
      let turn := (callLeaf o s files q 0).1
      Reply.call ⟨some turn.delay, turn.outcome⟩
  after s files q deadline :=
    if o.composite then
      leaveAll o files q (s.now + deadline) s.now (List.range o.leaves.length) s
    else
      let (turn, next) := callLeaf o s files q 0
      { next with now := s.now + min deadline turn.delay }

end TemplateTypes.Script
