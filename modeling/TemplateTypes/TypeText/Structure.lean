import TemplateTypes.Text.Letter
import TemplateTypes.TypeText.Normal

namespace TemplateTypes.TypeText

open Text

def isNullish (member : Text) : Bool := member == "null".toList || member == "undefined".toList

/-- A union without `null` and `undefined`, unless nothing else would be left. -/
def stripNullish (t : Text) : Text :=
  match (splitTop '|' t).filter (!isNullish ·) with
  | [] => t
  | members => unionText members

def unwrapFrom : (fuel : Nat) → Text → Text
  | 0, t => t
  | fuel + 1, t =>
    if startsWith t ['('] && endsWith t [')'] then unwrapFrom fuel (trim (t.drop 1).dropLast)
    else t

/-- A trimmed text without a parenthesis at both ends, as often as there is one. -/
def unwrap (t : Text) : Text := unwrapFrom t.length (trim t)

def isOneLine (t : Text) : Bool := t.all (· != '\n')

def arrayItem? (t : Text) : Option Text :=
  if endsWith t ['[', ']'] then
    let item := t.take (t.length - 2)
    if !item.isEmpty && isOneLine item then some item else none
  else none

def generic? (t : Text) : Option (Text × Text) :=
  let isNameChar (c : Char) : Bool := isWord c || c == '$' || c == '.'
  let name := t.takeWhile isNameChar
  match t.dropWhile isNameChar with
  | '<' :: rest =>
    let arguments := rest.dropLast
    if !name.isEmpty && endsWith rest ['>'] && !arguments.isEmpty && isOneLine arguments then
      some (name, arguments)
    else none
  | _ => none

def genericName (t : Text) : Text :=
  match generic? t with
  | some (name, _) => name
  | none => t

def bare (t : Text) : Text := unwrap (stripNullish t)

def arrayNames : List Text := ["Array".toList, "ReadonlyArray".toList]

def signalNames : List Text :=
  ["Signal", "WritableSignal", "InputSignal", "ModelSignal",
    "InputSignalWithTransform"].map String.toList

def elementType? (t : Text) : Option Text :=
  match arrayItem? (bare t) with
  | some item => some (unwrap item)
  | none =>
    match generic? (bare t) with
    | some (name, arguments) => if arrayNames.contains name then some (trim arguments) else none
    | none => none

/-- A signal type whose argument list holds nothing has no first argument to give. -/
inductive CallError
  | noArgument
  deriving DecidableEq, Repr

def CallError.message : CallError → Text
  | .noArgument => "list index out of range".toList

def arrowResult? (t : Text) : Option Text :=
  match findLast? ['=', '>'] t with
  | some (i + 1) => if startsWith t ['('] then some (trim (t.drop (i + 3))) else none
  | _ => none

def callResult (t : Text) : Except CallError (Option Text) :=
  match generic? (bare t) with
  | some (name, arguments) =>
    if signalNames.contains name then
      match splitTop ',' arguments with
      | first :: _ => .ok (some first)
      | [] => .error .noArgument
    else .ok (arrowResult? (bare t))
  | none => .ok (arrowResult? (bare t))

end TemplateTypes.TypeText
