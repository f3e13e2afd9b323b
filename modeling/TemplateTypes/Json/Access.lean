import TemplateTypes.Json.Value

namespace TemplateTypes.Json

open Text

def text (s : String) : Json := .str s.toList

def object (members : List (String × Json)) : Json :=
  .obj (members.map fun member => (member.1.toList, member.2))

def orNull (value : Option Json) : Json := value.getD .null

def textOrNull (value : Option Text) : Json := orNull (value.map .str)

def field (j : Json) (name : String) : Json := orNull (j.member? name.toList)

def has (j : Json) (name : String) : Bool := (j.member? name.toList).isSome

def text? : Json → Option Text
  | .str t => some t
  | _ => none

def elements : Json → List Json
  | .arr items => items
  | _ => []

/-- A whole number; one that is written with a point or an exponent counts as well. -/
def whole? : Json → Option Int
  | .int n => some n
  | .float x => x.toInt?
  | _ => none

def truth? : Json → Option Bool
  | .bool b => some b
  | _ => none

def textOf (j : Json) : Text := j.text?.getD []

def textAt (j : Json) (name : String) : Text := (j.field name).textOf

def textAtOr (j : Json) (name : String) (default : Text) : Text :=
  ((j.field name).text?).getD default

def elementsAt (j : Json) (name : String) : List Json := (j.field name).elements

def textsAt (j : Json) (name : String) : List Text := (j.elementsAt name).map textOf

def wholeAt (j : Json) (name : String) (default : Int) : Int :=
  ((j.field name).whole?).getD default

def truthAt (j : Json) (name : String) (default : Bool) : Bool :=
  ((j.field name).truth?).getD default

def units? (places : Nat) : Json → Option Int
  | .int n => some (n * Nat.pow 10 places)
  | .float (.finite negative digits exponent) =>
    let shift := exponent + places
    let size : Int :=
      if 0 ≤ shift then digits * Nat.pow 10 shift.toNat else digits / Nat.pow 10 (-shift).toNat
    some (if negative then -size else size)
  | _ => none

end TemplateTypes.Json
