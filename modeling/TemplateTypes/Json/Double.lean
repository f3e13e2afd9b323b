import TemplateTypes.Text.Basic

namespace TemplateTypes

open Text

inductive Double
  -- `digits * 10 ^ exponent`, without trailing zeros among the digits.
  | finite (negative : Bool) (digits : Nat) (exponent : Int)
  | infinite (negative : Bool)
  | nan
  deriving DecidableEq, Repr

namespace Double

structure Ratio where
  top : Nat
  bottom : Nat

namespace Ratio

def scale (r : Ratio) (base : Nat) : Int → Ratio
  | .ofNat n => ⟨r.top * base.pow n, r.bottom⟩
  | .negSucc n => ⟨r.top, r.bottom * base.pow (n + 1)⟩

def le (r s : Ratio) : Bool := r.top * s.bottom ≤ s.top * r.bottom

def floor (r : Ratio) : Nat := r.top / r.bottom

def round (r : Ratio) : Nat :=
  let low := r.floor
  let rest := 2 * (r.top % r.bottom)
  if rest < r.bottom then low
  else if r.bottom < rest then low + 1
  else if low % 2 = 0 then low else low + 1

def log2 (r : Ratio) : Int :=
  let guess : Int := (r.top.log2 : Int) - r.bottom.log2
  if le (scale ⟨1, 1⟩ 2 guess) r then guess else guess - 1

/-- The exponent of the least power of ten above the ratio, found by counting up or down from
    the length of its whole part. -/
def log10Above (r : Ratio) : Int :=
  if r.floor = 0 then zeros 400 r 0 else (Nat.toDigits 10 r.floor).length
where
  zeros : Nat → Ratio → Int → Int
    | 0, _, found => found
    | fuel + 1, r, found =>
      let larger := r.scale 10 1
      if larger.floor = 0 then zeros fuel larger (found - 1) else found

end Ratio

def minExponent : Int := -1074

def leastMantissa : Nat := Nat.pow 2 52

/-- A number as mantissa and power of two; none when it is beyond the range. -/
def nearest? (r : Ratio) : Option (Nat × Int) :=
  let exponent := max (r.log2 - 52) minExponent
  let mantissa := (r.scale 2 (-exponent)).round
  let (mantissa, exponent) :=
    if mantissa = 2 * leastMantissa then (leastMantissa, exponent + 1) else (mantissa, exponent)
  if 971 < exponent then none else some (mantissa, exponent)

def stripZeros : (fuel : Nat) → Nat → Int → Nat × Int
  | 0, digits, exponent => (digits, exponent)
  | fuel + 1, digits, exponent =>
    if digits ≠ 0 && digits % 10 = 0 then stripZeros fuel (digits / 10) (exponent + 1)
    else (digits, exponent)

/-- The decimals of `count` digits next to `value`, those between `low` and `high` only, the
    nearer one first. -/
def candidate? (value low high : Ratio) (inclusive : Bool) (exponent : Int) : Option Nat :=
  let inside (digits : Nat) : Bool :=
    let point := scaleBy digits
    if inclusive then low.le point && point.le high
    else !point.le low && !high.le point
  let below := (value.scale 10 (-exponent)).floor
  let above := below + 1
  match inside below, inside above with
  | true, true => some (value.scale 10 (-exponent)).round
  | true, false => some below
  | false, true => some above
  | false, false => none
where
  scaleBy (digits : Nat) : Ratio := Ratio.scale ⟨digits, 1⟩ 10 exponent

def shortestFrom (value low high : Ratio) (inclusive : Bool) (above : Int) :
    (fuel count : Nat) → Nat × Int
  | 0, _ => (0, 0)
  | fuel + 1, count =>
    let exponent := above - count
    match candidate? value low high inclusive exponent with
    | some digits => stripZeros 20 digits exponent
    | none => shortestFrom value low high inclusive above fuel (count + 1)

def shortest (mantissa : Nat) (exponent : Int) : Nat × Int :=
  let at4 (m : Nat) : Ratio := Ratio.scale ⟨m, 4⟩ 2 exponent
  let value := at4 (4 * mantissa)
  let low :=
    if mantissa = leastMantissa && minExponent < exponent then at4 (4 * mantissa - 1)
    else at4 (4 * mantissa - 2)
  shortestFrom value low (at4 (4 * mantissa + 2)) (mantissa % 2 = 0) value.log10Above 17 1

def ofDecimal (negative : Bool) (digits : Nat) (exponent : Int) : Double :=
  let size : Int := (Nat.toDigits 10 digits).length + exponent
  if digits = 0 || size < -400 then .finite negative 0 0
  else if 400 < size then .infinite negative
  else
    match nearest? (Ratio.scale ⟨digits, 1⟩ 10 exponent) with
    | none => .infinite negative
    | some (0, _) => .finite negative 0 0
    | some (mantissa, binary) =>
      let (digits, exponent) := shortest mantissa binary
      .finite negative digits exponent

def isZero : Double → Bool
  | .finite _ 0 _ => true
  | _ => false

def toInt? : Double → Option Int
  | .finite negative digits (.ofNat n) =>
    let size : Int := digits * Nat.pow 10 n
    some (if negative then -size else size)
  | .finite _ 0 _ => some 0
  | _ => none

/-- The point is written inside or next to the digits when it stands at most sixteen places
    after the first one, or up to three places before it; else an exponent of two digits or more
    is written. -/
def finiteText (negative : Bool) (digits : Nat) (exponent : Int) : Text :=
  let sign : Text := if negative then ['-'] else []
  let ds := ofNat digits
  let point : Int := ds.length + exponent
  if digits = 0 then sign ++ "0.0".toList
  else if -4 < point && point ≤ 16 then
    if point ≤ 0 then sign ++ "0.".toList ++ List.replicate (-point).toNat '0' ++ ds
    else if ds.length ≤ point.toNat then
      sign ++ ds ++ List.replicate (point.toNat - ds.length) '0' ++ ".0".toList
    else sign ++ ds.take point.toNat ++ ['.'] ++ ds.drop point.toNat
  else
    let mantissa := match ds with
      | [] => []
      | [d] => [d]
      | d :: more => d :: '.' :: more
    let power := point - 1
    let powerDigits := ofNat power.natAbs
    sign ++ mantissa ++ ['e', if power < 0 then '-' else '+'] ++
      List.replicate (2 - powerDigits.length) '0' ++ powerDigits

end Double

end TemplateTypes
