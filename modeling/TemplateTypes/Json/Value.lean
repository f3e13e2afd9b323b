import TemplateTypes.Json.Double

namespace TemplateTypes

open Text

inductive Json
  | null
  | bool (b : Bool)
  | int (n : Int)
  | float (x : Double)
  | str (t : Text)
  | arr (items : List Json)
  | obj (members : List (Text × Json))
  deriving Repr, BEq

namespace Json

def setMember (name : Text) (value : Json) : List (Text × Json) → List (Text × Json)
  | [] => [(name, value)]
  | member :: more =>
    if member.1 == name then (name, value) :: more else member :: setMember name value more

def ofMembers (members : List (Text × Json)) : Json :=
  .obj (members.foldl (fun done member => setMember member.1 member.2 done) [])

def member? (name : Text) : Json → Option Json
  | .obj members => members.lookup name
  | _ => none

def holds : Json → Bool
  | .null => false
  | .bool b => b
  | .int n => n != 0
  | .float x => !x.isZero
  | .str t => !t.isEmpty
  | .arr items => !items.isEmpty
  | .obj members => !members.isEmpty

end Json

end TemplateTypes
