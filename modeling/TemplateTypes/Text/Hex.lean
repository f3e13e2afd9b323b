import TemplateTypes.Text.Basic

namespace TemplateTypes.Text

def hexDigit (n : Nat) : Char := Nat.digitChar (n % 16)

def hex : (width n : Nat) → Text
  | 0, _ => []
  | width + 1, n => hex width (n / 16) ++ [hexDigit n]

def hexValue? (c : Char) : Option Nat :=
  if '0' ≤ c && c ≤ '9' then some (c.toNat - 48)
  else if 'a' ≤ c && c ≤ 'f' then some (c.toNat - 87)
  else if 'A' ≤ c && c ≤ 'F' then some (c.toNat - 55)
  else none

def isHexDigit (c : Char) : Bool := (hexValue? c).isSome

def hexByte? : Text → Option UInt8
  | a :: b :: _ =>
    match hexValue? a, hexValue? b with
    | some a, some b => some (a * 16 + b).toUInt8
    | _, _ => none
  | _ => none

end TemplateTypes.Text
