import TemplateTypes.Text.Letter
import TemplateTypes.TypeText.Normal

namespace TemplateTypes

inductive Confidence
  | low
  | medium
  | high
  deriving DecidableEq, Repr

def Confidence.text : Confidence → Text
  | .low => "low".toList
  | .medium => "medium".toList
  | .high => "high".toList

def Confidence.rank : Confidence → Nat
  | .low => 0
  | .medium => 1
  | .high => 2

namespace TypeText

open Text

def isQuotedBy (quote : Char) (t : Text) : Bool :=
  match t with
  | [] => false
  | c :: rest =>
    c == quote && rest.getLast? == some quote && rest.dropLast.all (· != quote)

def isUnsignedNumber (t : Text) : Bool :=
  let whole := t.takeWhile isDecimal
  !whole.isEmpty &&
    match t.dropWhile isDecimal with
    | [] => true
    | '.' :: fraction => !fraction.isEmpty && fraction.all isDecimal
    | _ => false

def isNumber : Text → Bool
  | '-' :: rest => isUnsignedNumber rest
  | t => isUnsignedNumber t

def isLiteral (t : Text) : Bool :=
  isQuotedBy singleQuote t || isQuotedBy doubleQuote t || isQuotedBy backtick t || isNumber t ||
    t == "true".toList || t == "false".toList

def isVague (t : Text) : Bool := t == any || t == unknown

/-- Vague types rate low. A single type rates high unless it is an intersection, and a union
    rates high when it lists values only. A `null` member has no say. -/
def classify (t : Text) : Confidence :=
  if isVague t then .low
  else
    match (splitTop '|' t).filter (· != "null".toList) with
    | [] => if (splitTop '&' t).length > 1 then .medium else .high
    | [member] =>
      if isVague member then .low
      else if (splitTop '&' t).length > 1 then .medium else .high
    | members => if members.all isLiteral then .high else .medium

end TypeText

end TemplateTypes
