import TemplateTypes.Text.Utf8

namespace TemplateTypes.Utf8

open Text

def feed : Start → Bytes → Option Char
  | .char c, [] => some c
  | .pending p, b :: rest => if p.accepts b then feed (p.push b) rest else none
  | _, _ => none

theorem feed_last {lead : UInt8} {seen low high value tail : Nat}
    (accepted : low ≤ 0x80 + tail ∧ 0x80 + tail ≤ high) (bound : tail < 64) :
    feed (.pending ⟨lead, seen, 1, low, high, value⟩) [(0x80 + tail).toUInt8] =
      some (Char.ofNat (value * 64 + tail)) := by
  have byte : (0x80 + tail) % 256 = 0x80 + tail := Nat.mod_eq_of_lt (by omega)
  simp [feed, Pending.accepts, Pending.push, byte, accepted]

theorem feed_more {lead : UInt8} {seen owed low high value tail : Nat} {rest : Bytes}
    (accepted : low ≤ 0x80 + tail ∧ 0x80 + tail ≤ high) (bound : tail < 64) :
    feed (.pending ⟨lead, seen, owed + 2, low, high, value⟩) ((0x80 + tail).toUInt8 :: rest) =
      feed (.pending ⟨lead, seen + 1, owed + 1, 0x80, 0xBF, value * 64 + tail⟩) rest := by
  have byte : (0x80 + tail) % 256 = 0x80 + tail := Nat.mod_eq_of_lt (by omega)
  simp [feed, Pending.accepts, Pending.push, byte, accepted]

theorem first_one {n : Nat} (bound : n < 0x80) : first n.toUInt8 = .char (Char.ofNat n) := by
  have byte : n % 256 = n := Nat.mod_eq_of_lt (by omega)
  simp [first, byte, bound]

theorem first_two {n : Nat} (least : 2 ≤ n) (bound : n < 32) :
    ∃ lead, first (0xC0 + n).toUInt8 = .pending ⟨lead, 1, 1, 0x80, 0xBF, n⟩ := by
  have byte : (0xC0 + n) % 256 = 0xC0 + n := Nat.mod_eq_of_lt (by omega)
  refine ⟨(0xC0 + n).toUInt8, ?_⟩
  simp only [first, Nat.toUInt8_eq, UInt8.toNat_ofNat', byte]
  rw [if_neg (by omega), if_neg (by omega), if_pos (by omega), Nat.add_sub_cancel_left]

theorem first_three {n : Nat} (bound : n < 16) :
    ∃ lead, first (0xE0 + n).toUInt8 = .pending ⟨lead, 1, 2, if n = 0 then 0xA0 else 0x80,
      if n = 13 then 0x9F else 0xBF, n⟩ := by
  have byte : (0xE0 + n) % 256 = 0xE0 + n := Nat.mod_eq_of_lt (by omega)
  refine ⟨(0xE0 + n).toUInt8, ?_⟩
  simp only [first, Nat.toUInt8_eq, UInt8.toNat_ofNat', byte]
  rw [if_neg (by omega), if_neg (by omega), if_neg (by omega)]
  by_cases zero : n = 0
  · simp [zero]
  · by_cases surrogates : n = 13
    · simp [surrogates]
    · rw [if_neg (by omega), if_neg (by omega), if_pos (by omega)]
      simp [zero, surrogates]

theorem first_four {n : Nat} (bound : n ≤ 4) :
    ∃ lead, first (0xF0 + n).toUInt8 = .pending ⟨lead, 1, 3, if n = 0 then 0x90 else 0x80,
      if n = 4 then 0x8F else 0xBF, n⟩ := by
  have byte : (0xF0 + n) % 256 = 0xF0 + n := Nat.mod_eq_of_lt (by omega)
  refine ⟨(0xF0 + n).toUInt8, ?_⟩
  simp only [first, Nat.toUInt8_eq, UInt8.toNat_ofNat', byte]
  rw [if_neg (by omega), if_neg (by omega), if_neg (by omega), if_neg (by omega),
    if_neg (by omega), if_neg (by omega)]
  by_cases zero : n = 0
  · simp [zero]
  · by_cases last : n = 4
    · simp [last]
    · rw [if_neg (by omega), if_pos (by omega)]
      simp [zero, last]

theorem feed_encodeChar (c : Char) :
    ∃ b rest, encodeChar c = b :: rest ∧ feed (first b) rest = some c := by
  have valid : c.toNat < 0xD800 ∨ 0xDFFF < c.toNat ∧ c.toNat < 0x110000 := c.valid
  have same : Char.ofNat c.toNat = c := Char.ofNat_toNat c
  unfold encodeChar
  dsimp only
  split
  · rename_i bound
    exact ⟨_, _, rfl, by rw [first_one bound, feed, same]⟩
  · split
    · rename_i one two
      obtain ⟨lead, started⟩ := first_two (n := c.toNat / 64) (by omega) (by omega)
      refine ⟨_, _, rfl, ?_⟩
      rw [started, feed_last (by omega) (by omega)]
      rw [show c.toNat / 64 * 64 + c.toNat % 64 = c.toNat by omega, same]
    · split
      · rename_i one two three
        obtain ⟨lead, started⟩ := first_three (n := c.toNat / 4096) (by omega)
        refine ⟨_, _, rfl, ?_⟩
        rw [started, feed_more ⟨by split <;> omega, by split <;> omega⟩ (by omega),
          feed_last (by omega) (by omega)]
        rw [show (c.toNat / 4096 * 64 + c.toNat / 64 % 64) * 64 + c.toNat % 64 = c.toNat by omega,
          same]
      · rename_i one two three
        obtain ⟨lead, started⟩ := first_four (n := c.toNat / 262144) (by omega)
        refine ⟨_, _, rfl, ?_⟩
        rw [started, feed_more ⟨by split <;> omega, by split <;> omega⟩ (by omega),
          feed_more (by omega) (by omega), feed_last (by omega) (by omega)]
        rw [show ((c.toNat / 262144 * 64 + c.toNat / 4096 % 64) * 64 + c.toNat / 64 % 64) * 64 +
          c.toNat % 64 = c.toNat by omega, same]

theorem decodeFrom_pending {p : Pending} {bytes : Bytes} {c : Char} (position : Nat) (done : Text)
    (rest : Bytes) (fed : feed (.pending p) bytes = some c) :
    decodeFrom (some p) position done (bytes ++ rest) =
      decodeFrom none (position + bytes.length) (c :: done) rest := by
  induction bytes generalizing p position with
  | nil => simp [feed] at fed
  | cons b bytes ih =>
    rw [feed, Option.ite_none_right_eq_some] at fed
    obtain ⟨accepted, fed⟩ := fed
    rw [List.cons_append, decodeFrom]
    simp only [accepted, ↓reduceIte]
    cases pushed : p.push b with
    | invalid =>
      rw [pushed] at fed
      cases bytes <;> simp [feed] at fed
    | pending q =>
      rw [pushed] at fed
      dsimp only
      rw [ih (position + 1) fed, List.length_cons, Nat.add_assoc, Nat.add_comm 1]
    | char d =>
      rw [pushed] at fed
      cases bytes with
      | nil =>
        obtain rfl : d = c := by simpa [feed] using fed
        rfl
      | cons b bytes => simp [feed] at fed

theorem decodeFrom_encodeChar (c : Char) (position : Nat) (done : Text) (rest : Bytes) :
    decodeFrom none position done (encodeChar c ++ rest) =
      decodeFrom none (position + (encodeChar c).length) (c :: done) rest := by
  obtain ⟨b, bytes, encoded, fed⟩ := feed_encodeChar c
  rw [encoded, List.cons_append, decodeFrom]
  cases started : first b with
  | invalid =>
    rw [started] at fed
    cases bytes <;> simp [feed] at fed
  | pending p =>
    rw [started] at fed
    dsimp only
    rw [decodeFrom_pending (position + 1) done rest fed, List.length_cons, Nat.add_assoc,
      Nat.add_comm 1]
  | char d =>
    rw [started] at fed
    cases bytes with
    | nil =>
      obtain rfl : d = c := by simpa [feed] using fed
      rfl
    | cons b bytes => simp [feed] at fed

theorem decode_encode (t : Text) : decode (encode t) = .ok t := by
  have read : ∀ (position : Nat) (done : Text),
      decodeFrom none position done (encode t) = .ok (done.reverse ++ t) := by
    unfold encode
    induction t with
    | nil => simp [decodeFrom]
    | cons c t ih =>
      intro position done
      rw [List.flatMap_cons, decodeFrom_encodeChar, ih]
      simp
  exact read 0 []

theorem encode_append (t u : Text) : encode (t ++ u) = encode t ++ encode u :=
  List.flatMap_append

theorem decodeReplacingFrom_of_decodeFrom {pending : Option Pending} {position : Nat}
    {done t : Text} {bytes : Bytes} (read : decodeFrom pending position done bytes = .ok t) :
    decodeReplacingFrom pending done bytes = t := by
  induction bytes generalizing pending position done with
  | nil =>
    cases pending with
    | none => exact Except.ok.inj read
    | some p => cases read
  | cons b rest ih =>
    cases pending with
    | none =>
      rw [decodeFrom] at read
      rw [decodeReplacingFrom]
      cases started : first b with
      | invalid => simp [started] at read
      | char c | pending q =>
        rw [started] at read
        exact ih read
    | some p =>
      rw [decodeFrom] at read
      rw [decodeReplacingFrom]
      cases accepted : p.accepts b with
      | false => simp [accepted] at read
      | true =>
        cases pushed : p.push b with
        | invalid => simp [accepted, pushed] at read
        | char c | pending q =>
          simp only [accepted, pushed, ↓reduceIte] at read ⊢
          exact ih read

theorem decodeReplacing_encode (t : Text) : decodeReplacing (encode t) = t :=
  decodeReplacingFrom_of_decodeFrom (decode_encode t)

end TemplateTypes.Utf8
