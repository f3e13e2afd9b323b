import TemplateTypes.Text.Letter

namespace TemplateTypes

open Text

inductive ChainStep
  | member (name : Text)
  | index (subscript : Text)
  | call (arguments : Text)
  deriving DecidableEq, Repr

namespace Chain

/-- Offset of the bracket that closes the one before the text; brackets of another kind and
    literals are not looked at. -/
def closing? (opens closes : Char) (depth : Nat) : Text → Option Nat
  | [] => none
  | c :: rest =>
    if c == opens then (closing? opens closes (depth + 1) rest).map (· + 1)
    else if c == closes then
      if depth = 0 then some 0 else (closing? opens closes (depth - 1) rest).map (· + 1)
    else (closing? opens closes depth rest).map (· + 1)

def bracketNext (t : Text) : Bool := startsWith t ['['] || startsWith t ['(']

/-- The steps after a first name, the first `skip` characters left out. Blanks and `!` mean
    nothing, and a dot may stand in front of a bracket. -/
def stepsFrom : (skip : Nat) → Text → Option (List ChainStep)
  | _, [] => some []
  | skip + 1, _ :: rest => stepsFrom skip rest
  | 0, c :: rest =>
    if isBlank c || c == '!' then stepsFrom 0 rest
    else if c == '.' || (c == '?' && startsWith rest ['.']) then
      let dots := if c == '?' then 1 else 0
      let after := rest.drop dots
      if bracketNext after then stepsFrom dots rest
      else match name? after with
        | none => none
        | some (name, _) => (stepsFrom (dots + name.length) rest).map (.member name :: ·)
    else if c == '[' then
      match closing? '[' ']' 0 rest with
      | none => none
      | some i => (stepsFrom (i + 1) rest).map (.index (rest.take i) :: ·)
    else if c == '(' then
      match closing? '(' ')' 0 rest with
      | none => none
      | some i => (stepsFrom (i + 1) rest).map (.call (rest.take i) :: ·)
    else none

def ofExpression? (expression : Text) : Option (List ChainStep) :=
  match name? (trim expression) with
  | none => none
  | some (name, rest) => (stepsFrom 0 rest).map (.member name :: ·)

end Chain

end TemplateTypes
