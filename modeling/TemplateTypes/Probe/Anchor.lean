import TemplateTypes.Text.Letter

namespace TemplateTypes.Anchor

open Text

def opens (c : Char) : Bool := c == '(' || c == '[' || c == '\x7b'

def closes (c : Char) : Bool := c == ')' || c == ']' || c == '\x7d'

def quotes (c : Char) : Bool := c == singleQuote || c == doubleQuote || c == backtick

/-- What is known while looking for the first call and the first pipe. -/
structure State where
  depth : Int
  quote : Option Char
  last : Option Char
  call : Option Nat

/-- Offset of the first parenthesis outside brackets or, without one, of the first pipe outside
    brackets or the end. -/
def limitFrom (s : State) (index : Nat) : Text → Nat
  | [] => s.call.getD index
  | c :: rest =>
    match s.quote with
    | some q =>
      let quote := if c == q && s.last != some '\\' then none else some q
      limitFrom { s with quote, last := some c } (index + 1) rest
    | none =>
      if quotes c then limitFrom { s with quote := some c, last := some c } (index + 1) rest
      else if opens c then
        let call :=
          if c == '(' && s.depth == 0 && s.call.isNone then some index else s.call
        limitFrom { s with depth := s.depth + 1, last := some c, call } (index + 1) rest
      else if closes c then
        limitFrom { s with depth := s.depth - 1, last := some c } (index + 1) rest
      else if c == '|' && s.depth == 0 && rest.head? != some '|' && s.last != some '|' then
        s.call.getD index
      else limitFrom { s with last := some c } (index + 1) rest

def limit (expression : Text) : Nat := limitFrom ⟨0, none, none, none⟩ 0 expression

def freeBefore : Option Char → Bool
  | none => true
  | some c => !(isLetterOrNumber c || c == '_' || c == '$')

/-- Looks for names up to `limit`, the first `skip` characters left out; `found` is the last name
    met. A literal is passed as a whole, and one that does not end ends the search. -/
def lastNameFrom (limit : Nat) : (skip index : Nat) → (last : Option Char) → (depth : Int) →
    (found : Nat) → Text → Nat
  | _, _, _, _, found, [] => found
  | skip + 1, index, _, depth, found, c :: rest =>
    lastNameFrom limit skip (index + 1) (some c) depth found rest
  | 0, index, last, depth, found, c :: rest =>
    if limit ≤ index then found
    else if quotes c then
      if rest.elem c then
        lastNameFrom limit ((rest.takeWhile (· != c)).length + 1) (index + 1) (some c) depth
          found rest
      else found
    else if opens c then lastNameFrom limit 0 (index + 1) (some c) (depth + 1) found rest
    else if closes c then lastNameFrom limit 0 (index + 1) (some c) (depth - 1) found rest
    else if depth = 0 && isNameStart c && freeBefore last then
      lastNameFrom limit (rest.takeWhile isNamePart).length (index + 1) (some c) depth index rest
    else lastNameFrom limit 0 (index + 1) (some c) depth found rest

end Anchor

def hoverAnchor (expression : Text) : Nat :=
  Anchor.lastNameFrom (Anchor.limit expression) 0 0 none 0 0 expression

end TemplateTypes
