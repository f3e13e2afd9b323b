import TemplateTypes.Json.Reader
import TemplateTypes.Json.Writer

namespace TemplateTypes.Json

open Text

theorem hexValue?_digitChar : ∀ d < 16, hexValue? (Nat.digitChar d) = some d := by decide

theorem hexValue?_hexDigit (n : Nat) : hexValue? (hexDigit n) = some (n % 16) :=
  hexValue?_digitChar (n % 16) (Nat.mod_lt n (by omega))

theorem unit?_hex {n : Nat} (bound : n < 0x10000) (rest : Text) :
    unit? (hex 4 n ++ rest) = some (n, rest) := by
  simp only [hex, List.nil_append, List.cons_append, unit?, hexValue?_hexDigit,
    Option.bind_eq_bind, Option.bind_some, Option.pure_def, Option.some.injEq, Prod.mk.injEq,
    and_true]
  omega

theorem toNat_valid (c : Char) : c.toNat < 0xD800 ∨ 0xDFFF < c.toNat ∧ c.toNat < 0x110000 :=
  c.valid

theorem unicodeEscape_unit {c : Char} (single : c.toNat < 0x10000) {rest : Text}
    (more : rest ≠ []) : unicodeEscape (hex 4 c.toNat ++ rest) = .ok (c, rest) := by
  have valid := toNat_valid c
  have high : isHigh c.toNat = false := by
    simp only [isHigh, Bool.and_eq_false_iff, decide_eq_false_iff_not]
    omega
  have low : isLow c.toNat = false := by
    simp only [isLow, Bool.and_eq_false_iff, decide_eq_false_iff_not]
    omega
  unfold unicodeEscape
  rw [unit?_hex single]
  cases rest with
  | nil => exact absurd rfl more
  | cons d rest => simp [high, low, unitChar]

theorem length_hex (width n : Nat) : (hex width n).length = width := by
  induction width generalizing n with
  | zero => rfl
  | succ width ih => rw [hex, List.length_append, ih, List.length_singleton]

theorem surrogates_join {n : Nat} (double : 0x10000 ≤ n) (valid : n < 0x110000) :
    isHigh (0xD800 + (n - 0x10000) / 0x400) = true ∧
      isLow (0xDC00 + (n - 0x10000) % 0x400) = true ∧
      0x10000 + (0xD800 + (n - 0x10000) / 0x400 - 0xD800) * 0x400 +
        (0xDC00 + (n - 0x10000) % 0x400 - 0xDC00) = n := by
  simp only [isHigh, isLow, Bool.and_eq_true, decide_eq_true_eq]
  omega

theorem unicodeEscape_pair {c : Char} {first second : Nat} (high : isHigh first = true)
    (low : isLow second = true)
    (joined : 0x10000 + (first - 0xD800) * 0x400 + (second - 0xDC00) = c.toNat) {rest : Text}
    (more : rest ≠ []) :
    unicodeEscape (hex 4 first ++ (unitEscape second ++ rest)) = .ok (c, rest) := by
  have firstBound : first < 0x10000 := by
    simp only [isHigh, Bool.and_eq_true, decide_eq_true_eq] at high
    omega
  have secondBound : second < 0x10000 := by
    simp only [isLow, Bool.and_eq_true, decide_eq_true_eq] at low
    omega
  have several : ¬ (hex 4 second ++ rest).length ≤ 4 := by
    have := List.length_pos_iff.mpr more
    rw [List.length_append, length_hex]
    omega
  have firstUnit := unit?_hex firstBound ('\\' :: 'u' :: (hex 4 second ++ rest))
  have secondUnit := unit?_hex secondBound rest
  unfold unicodeEscape
  simp only [firstUnit, high, ↓reduceIte, unitEscape, List.cons_append, several, secondUnit, low]
  rw [joined, Char.ofNat_toNat]

theorem stringRest_short {start fuel : Nat} {done rest : Text} {e c : Char} (other : e ≠ 'u')
    (short : plainEscape? e = some c) :
    stringRest start (fuel + 1) done ('\\' :: e :: rest) = stringRest start fuel (c :: done) rest := by
  rw [stringRest]
  · simp [doubleQuote, short]
  · exact other

theorem stringRest_unicode {start fuel : Nat} {done t rest : Text} {c : Char}
    (escape : unicodeEscape t = .ok (c, rest)) :
    stringRest start (fuel + 1) done ('\\' :: 'u' :: t) = stringRest start fuel (c :: done) rest := by
  rw [stringRest]
  simp [doubleQuote, escape]

theorem stringRest_charText (start fuel : Nat) (done : Text) (c : Char) {rest : Text}
    (more : rest ≠ []) :
    stringRest start (fuel + 1) done (charText c ++ rest) =
      stringRest start fuel (c :: done) rest := by
  unfold charText
  dsimp only
  by_cases quote : c = doubleQuote
  · subst quote
    exact stringRest_short (by decide) rfl
  by_cases slash : c = '\\'
  · subst slash
    exact stringRest_short (by decide) rfl
  by_cases newline : c = '\n'
  · subst newline
    exact stringRest_short (by decide) rfl
  by_cases carriage : c = '\r'
  · subst carriage
    exact stringRest_short (by decide) rfl
  by_cases tab : c = '\t'
  · subst tab
    exact stringRest_short (by decide) rfl
  by_cases feed : c.toNat = 0x0C
  · obtain rfl : c = '\x0c' := Char.toNat_inj.mp feed
    exact stringRest_short (by decide) rfl
  by_cases back : c.toNat = 0x08
  · obtain rfl : c = '\x08' := Char.toNat_inj.mp back
    exact stringRest_short (by decide) rfl
  simp only [Bool.or_eq_true, beq_iff_eq, quote, slash, newline, carriage, tab, feed, back,
    or_false, ↓reduceIte]
  split
  · rename_i plain
    have printable : ¬ c.toNat < 32 := by
      simp only [Bool.and_eq_true, decide_eq_true_eq] at plain
      omega
    rw [List.singleton_append, stringRest.eq_def]
    simp [quote, slash, printable]
  · split
    · rename_i single
      exact stringRest_unicode (unicodeEscape_unit single more)
    · rename_i double
      have valid : c.toNat < 0x110000 := by
        have := toNat_valid c
        omega
      obtain ⟨high, low, joined⟩ := surrogates_join (Nat.not_lt.mp double) valid
      rw [List.append_assoc]
      exact stringRest_unicode (unicodeEscape_pair high low joined more)

theorem stringRest_text (start : Nat) (t : Text) {rest : Text} {fuel : Nat} (done : Text)
    (enough : t.length < fuel) :
    stringRest start fuel done (t.flatMap charText ++ doubleQuote :: rest) =
      .ok (done.reverse ++ t, rest) := by
  induction t generalizing fuel done with
  | nil =>
    cases fuel with
    | zero => simp at enough
    | succ fuel => simp [stringRest]
  | cons c t ih =>
    cases fuel with
    | zero => simp at enough
    | succ fuel =>
      rw [List.flatMap_cons, List.append_assoc, stringRest_charText _ _ _ _ (by simp),
        ih (c :: done) (by simpa using enough)]
      simp

theorem charText_ne_nil (c : Char) : charText c ≠ [] := by
  unfold charText unitEscape
  dsimp only
  repeat' split
  all_goals simp

theorem length_le_flatMap_charText (t : Text) : t.length ≤ (t.flatMap charText).length := by
  induction t with
  | nil => simp
  | cons c t ih =>
    have := List.length_pos_iff.mpr (charText_ne_nil c)
    rw [List.flatMap_cons, List.length_append, List.length_cons]
    omega

theorem string_text (t rest : Text) :
    string (t.flatMap charText ++ doubleQuote :: rest) = .ok (t, rest) := by
  have bound := length_le_flatMap_charText t
  apply stringRest_text
  rw [List.length_append]
  omega

end TemplateTypes.Json
