import TemplateTypes.Text.Basic

namespace TemplateTypes

open Text

def isOpener (c : Char) : Bool := c == '(' || c == '<' || c == '{' || c == '['

def isCloser (c : Char) : Bool := c == ')' || c == '>' || c == '}' || c == ']'

def isQuote (c : Char) : Bool := c == singleQuote || c == doubleQuote || c == backtick

/-- What is known before the next character: the open brackets, the open literal and the
    character just read. -/
structure Scanner where
  depth : Nat
  quote : Option Char
  last : Option Char
  deriving DecidableEq, Repr

namespace Scanner

def start : Scanner := ⟨0, none, none⟩

/-- The `>` of an arrow closes nothing, and depth never falls below zero. A quote after a
    backslash does not close its literal. -/
def next (s : Scanner) (c : Char) : Scanner :=
  match s.quote with
  | some q => ⟨s.depth, if c == q && s.last != some '\\' then none else some q, some c⟩
  | none =>
    if isQuote c then ⟨s.depth, some c, some c⟩
    else if isOpener c then ⟨s.depth + 1, none, some c⟩
    else if isCloser c && !(c == '>' && s.last == some '=') then ⟨s.depth - 1, none, some c⟩
    else ⟨s.depth, none, some c⟩

def sees (s : Scanner) (c : Char) : Bool := s.quote.isNone && !isQuote c

def seesTop (s : Scanner) (c : Char) : Bool := s.sees c && (s.next c).depth == 0

end Scanner

structure Mark where
  index : Nat
  char : Char
  depth : Nat
  deriving DecidableEq, Repr

def marksFrom (s : Scanner) (index : Nat) : Text → List Mark
  | [] => []
  | c :: rest =>
    if s.sees c then ⟨index, c, (s.next c).depth⟩ :: marksFrom (s.next c) (index + 1) rest
    else marksFrom (s.next c) (index + 1) rest

/-- Reading begins at `index`; the character before it is known, what it is part of is not. -/
def Scanner.at (t : Text) (index : Nat) : Scanner :=
  ⟨0, none, if index = 0 then none else t[index - 1]?⟩

def marks (t : Text) (start : Nat) : List Mark :=
  marksFrom (Scanner.at t start) start (t.drop start)

def findTopFrom (target : Char) (s : Scanner) : Text → Option Nat
  | [] => none
  | c :: rest =>
    if s.seesTop c && c == target then some 0
    else (findTopFrom target (s.next c) rest).map (· + 1)

/-- Offset of the first `target` outside literals and brackets, reading from `start`. -/
def findTop? (target : Char) (t : Text) (start : Nat) : Option Nat :=
  (findTopFrom target (Scanner.at t start) (t.drop start)).map (· + start)

/-- A separator outside literals and brackets; a `|` next to another one is no separator. -/
def Scanner.cuts (s : Scanner) (separator c : Char) (rest : Text) : Bool :=
  s.seesTop c && c == separator &&
    !(separator == '|' && (rest.head? == some '|' || s.last == some '|'))

def topPiecesFrom (separator : Char) (s : Scanner) : Text → List Text
  | [] => [[]]
  | c :: rest =>
    if s.cuts separator c rest then [] :: topPiecesFrom separator (s.next c) rest
    else match topPiecesFrom separator (s.next c) rest with
      | [] => [[c]]
      | piece :: more => (c :: piece) :: more

def splitTop (separator : Char) (t : Text) : List Text :=
  ((topPiecesFrom separator .start t).map trim).filter (!·.isEmpty)

def matchingParenFrom (s : Scanner) (depth : Int) : Text → Option Nat
  | [] => none
  | c :: rest =>
    if s.sees c && c == '(' then (matchingParenFrom (s.next c) (depth + 1) rest).map (· + 1)
    else if s.sees c && c == ')' then
      if depth = 1 then some 0
      else (matchingParenFrom (s.next c) (depth - 1) rest).map (· + 1)
    else (matchingParenFrom (s.next c) depth rest).map (· + 1)

/-- Offset of the `)` that brings the parentheses read from `start` on back to balance. -/
def matchingParen? (t : Text) (start : Nat) : Option Nat :=
  (matchingParenFrom (Scanner.at t start) 0 (t.drop start)).map (· + start)

end TemplateTypes
