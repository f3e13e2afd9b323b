import TemplateTypes.Json.Reader
import TemplateTypes.Json.Writer
import TemplateTypes.Proofs.Text.Numerals

namespace TemplateTypes.Json

open Text

theorem digitsValue_ofNat (n : Nat) : digitsValue (ofNat n) = n := by
  have commuted : ∀ (digits : Text) (m : Nat),
      digits.foldl (fun n c => n * 10 + (c.toNat - 48)) m = Nat.ofDigitChars 10 digits m := by
    intro digits m
    rw [Nat.ofDigitChars_eq_foldl]
    simp only [Nat.mul_comm]
    rfl
  exact (commuted (ofNat n) 0).trans Nat.ofDigitChars_ten_toDigits

def Stops (rest : Text) : Prop := ∀ c ∈ rest.head?, c = ',' ∨ c = ']' ∨ c = '\x7d'

theorem takeWhile_isDigit_ofNat (n : Nat) {rest : Text} (stops : Stops rest) :
    (ofNat n ++ rest).takeWhile Char.isDigit = ofNat n := by
  have digits : ∀ c ∈ ofNat n, c.isDigit = true := by
    intro c member
    obtain ⟨d, small, rfl⟩ := exists_digit_of_mem_ofNat member
    exact (digitChar_facts d small).1
  rw [List.takeWhile_append_of_pos digits]
  cases rest with
  | nil => simp
  | cons c rest =>
    have other : c.isDigit = false := by
      rcases stops c rfl with rfl | rfl | rfl <;> rfl
    simp [other]

theorem Stops.fraction? {rest : Text} (stops : Stops rest) : fraction? rest = none := by
  cases rest with
  | nil => rfl
  | cons c rest => rcases stops c rfl with rfl | rfl | rfl <;> rfl

theorem Stops.exponent? {rest : Text} (stops : Stops rest) : exponent? rest = none := by
  cases rest with
  | nil => rfl
  | cons c rest => rcases stops c rfl with rfl | rfl | rfl <;> rfl

theorem unsigned?_ofNat {n : Nat} (negative : Bool) {rest : Text} (stops : Stops rest)
    (short : (ofNat n).length ≤ maxDigits) :
    unsigned? negative (ofNat n ++ rest) =
      some (.ok (.int (if negative then -n else n), rest)) := by
  have taken := takeWhile_isDigit_ofNat n stops
  have value := digitsValue_ofNat n
  rcases Nat.eq_zero_or_pos n with rfl | positive
  · have zero : ofNat 0 = ['0'] := rfl
    unfold unsigned?
    simp [zero, stops.fraction?, stops.exponent?, maxDigits, digitsValue]
  · obtain ⟨c, more, written, nonzero⟩ := head_ofNat positive
    rw [written] at taken value short
    rw [List.cons_append] at taken
    rw [written, List.cons_append]
    have left : (c :: (more ++ rest)).drop (c :: more).length = rest := List.drop_left
    unfold unsigned?
    simp [nonzero, taken, left, value, Nat.not_lt.mpr short, stops.fraction?, stops.exponent?,
      -List.length_cons]

theorem scalar_unsigned {c : Char} (t : Text)
    (others : ∀ letter : Char, letter.isDigit = false → letter ≠ c) :
    scalar (c :: t) = (unsigned? false (c :: t)).getD (fail .expectingValue (c :: t)) := by
  have minus := others '-' rfl
  unfold scalar
  simp [after?, others 'n' rfl, others 't' rfl, others 'f' rfl, others 'N' rfl, others 'I' rfl,
    minus, minus.symm]

theorem scalar_negative {c : Char} (t : Text)
    (others : ∀ letter : Char, letter.isDigit = false → letter ≠ c) :
    scalar ('-' :: c :: t) =
      (unsigned? true (c :: t)).getD (fail .expectingValue ('-' :: c :: t)) := by
  unfold scalar
  simp [after?, others 'I' rfl]

theorem starts_ofNat (n : Nat) : ∃ c more, ofNat n = c :: more ∧
    ∀ letter : Char, letter.isDigit = false → letter ≠ c := by
  cases written : ofNat n with
  | nil => exact absurd written (ofNat_ne_nil n)
  | cons c more =>
    obtain ⟨d, small, rfl⟩ := exists_digit_of_mem_ofNat (n := n) (c := c) (by simp [written])
    exact ⟨_, more, rfl, fun letter other => (digitChar_ne_of_not_isDigit small other).symm⟩

theorem scalar_ofInt (n : Int) {rest : Text} (stops : Stops rest)
    (short : (ofNat n.natAbs).length ≤ maxDigits) :
    scalar (ofInt n ++ rest) = .ok (.int n, rest) := by
  cases n with
  | ofNat m =>
    obtain ⟨c, more, written, others⟩ := starts_ofNat m
    have number := unsigned?_ofNat (n := m) false stops short
    rw [written, List.cons_append] at number
    rw [ofInt, written]
    exact (scalar_unsigned _ others).trans (by simp [number])
  | negSucc m =>
    obtain ⟨c, more, written, others⟩ := starts_ofNat (m + 1)
    have number := unsigned?_ofNat (n := m + 1) true stops short
    rw [written, List.cons_append] at number
    rw [ofInt, written]
    exact (scalar_negative _ others).trans (by simp [number, Int.negSucc_eq])

end TemplateTypes.Json
