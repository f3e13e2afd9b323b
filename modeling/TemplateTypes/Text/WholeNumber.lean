import TemplateTypes.Text.Quoted

namespace TemplateTypes

open Text

inductive NumberError
  | invalid (text : Text)
  | tooManyDigits (count : Nat)
  deriving DecidableEq, Repr

def NumberError.message : NumberError → Text
  | .invalid t => "invalid literal for int() with base 10: ".toList ++ (quoted t).take 200
  | .tooManyDigits count =>
    "Exceeds the limit (4300 digits) for integer string conversion: value has ".toList ++
      ofNat count ++
      " digits; use sys.set_int_max_str_digits() to increase the limit".toList

namespace WholeNumber

def maxDigits : Nat := 4300

/-- The digit values of a text; `afterDigit` tells that an underscore may come next. -/
def digitsFrom? (afterDigit : Bool) : Text → Option (List Nat)
  | [] => if afterDigit then some [] else none
  | c :: rest =>
    if c == '_' then if afterDigit then digitsFrom? false rest else none
    else match digitValue? c with
      | some d => (digitsFrom? true rest).map (d :: ·)
      | none => none

def ofDigits (digits : List Nat) : Nat := digits.foldl (fun n d => n * 10 + d) 0

def read (t : Text) : Except NumberError Int :=
  let (negative, magnitude) := match trim t with
    | '-' :: rest => (true, rest)
    | '+' :: rest => (false, rest)
    | rest => (false, rest)
  match digitsFrom? false magnitude with
  | none => .error (.invalid t)
  | some digits =>
    if maxDigits < digits.length then .error (.tooManyDigits digits.length)
    else
      let value : Int := ofDigits digits
      .ok (if negative then -value else value)

end WholeNumber

end TemplateTypes
