import TemplateTypes.Proofs.Text.Numerals
import TemplateTypes.Proofs.Text.Utf8
import TemplateTypes.Server.Frame

namespace TemplateTypes.Frame

open Text

abbrev lineEnd : Text := "\r\n".toList

structure IsLine (line : Text) : Prop where
  nonempty : line ≠ []
  ascii : ∀ c ∈ line, c.toNat < 128
  unbroken : ∀ c ∈ line, c ≠ '\r' ∧ c ≠ '\n'

structure IsExtra (line : Text) : Prop extends IsLine line where
  other : lower (trim (cut ':' line).1) ≠ lengthName

theorem encodeChar_ascii {c : Char} (ascii : c.toNat < 128) :
    Utf8.encodeChar c = [c.toNat.toUInt8] := by
  simp [Utf8.encodeChar, ascii]

theorem encode_ascii {t : Text} (ascii : ∀ c ∈ t, c.toNat < 128) :
    Utf8.encode t = t.map fun c => c.toNat.toUInt8 := by
  induction t with
  | nil => rfl
  | cons c t ih =>
    have first := encodeChar_ascii (ascii c List.mem_cons_self)
    have rest := ih fun d member => ascii d (List.mem_cons_of_mem c member)
    simp only [Utf8.encode] at rest ⊢
    rw [List.flatMap_cons, first, rest, List.map_cons, List.singleton_append]

theorem toNat_byte {c : Char} (ascii : c.toNat < 128) : c.toNat.toUInt8.toNat = c.toNat := by
  simp [Nat.mod_eq_of_lt (show c.toNat < 256 by omega)]

theorem headerText_encode {t : Text} (ascii : ∀ c ∈ t, c.toNat < 128) :
    headerText (Utf8.encode t) = t := by
  have same : ∀ c ∈ t, (if c.toNat.toUInt8 < 128 then Char.ofNat c.toNat.toUInt8.toNat
      else Utf8.replacement) = c := by
    intro c member
    have byte := toNat_byte (ascii c member)
    have small : c.toNat.toUInt8 < 128 := by
      rw [UInt8.lt_iff_toNat_lt, byte]
      exact ascii c member
    rw [if_pos small, byte, Char.ofNat_toNat]
  rw [encode_ascii ascii, headerText, List.map_map]
  exact (List.map_congr_left same).trans (List.map_id t)

theorem IsLine.no_return {line : Text} (isLine : IsLine line) : 13 ∉ Utf8.encode line := by
  rw [encode_ascii isLine.ascii]
  intro member
  obtain ⟨c, inLine, same⟩ := List.mem_map.mp member
  have byte := toNat_byte (isLine.ascii c inLine)
  rw [same] at byte
  exact (isLine.unbroken c inLine).1 (Char.toNat_inj.mp byte.symm)

theorem IsLine.encode_ne_nil {line : Text} (isLine : IsLine line) : Utf8.encode line ≠ [] := by
  rw [encode_ascii isLine.ascii]
  simpa using isLine.nonempty

theorem splitHeaderFrom_line {bytes : Bytes} (noReturn : 13 ∉ bytes) (done rest : Bytes) :
    splitHeaderFrom done (bytes ++ rest) = splitHeaderFrom (bytes.reverse ++ done) rest := by
  induction bytes generalizing done with
  | nil => rfl
  | cons b bytes ih =>
    rw [List.mem_cons, not_or] at noReturn
    rw [List.cons_append, splitHeaderFrom, ih noReturn.2]
    · simp
    · exact fun _ same _ => noReturn.1 same.symm

theorem splitHeaderFrom_lineEnd {b : UInt8} (other : b ≠ 13) (done rest : Bytes) :
    splitHeaderFrom done (Utf8.encode lineEnd ++ b :: rest) =
      splitHeaderFrom ((Utf8.encode lineEnd).reverse ++ done) (b :: rest) := by
  change splitHeaderFrom done (13 :: 10 :: b :: rest) =
    splitHeaderFrom (10 :: 13 :: done) (b :: rest)
  rw [splitHeaderFrom, splitHeaderFrom]
  · exact fun _ same _ => absurd same (by decide)
  · intro _ _ same
    simp only [List.cons.injEq] at same
    exact other same.2.1

theorem encode_join_cons (line next : Text) (more : List Text) :
    Utf8.encode (join lineEnd (line :: next :: more)) =
      Utf8.encode line ++ (Utf8.encode lineEnd ++ Utf8.encode (join lineEnd (next :: more))) := by
  rw [join_cons, join_cons, List.flatMap_cons, List.append_assoc, Utf8.encode_append,
    Utf8.encode_append]

theorem encode_join_starts {line : Text} (isLine : IsLine line) (more : List Text) :
    ∃ b rest, b ≠ 13 ∧ Utf8.encode (join lineEnd (line :: more)) = b :: rest := by
  have noReturn := isLine.no_return
  cases encoded : Utf8.encode line with
  | nil => exact absurd encoded isLine.encode_ne_nil
  | cons b rest =>
    rw [encoded, List.mem_cons, not_or] at noReturn
    cases more with
    | nil => exact ⟨b, rest, Ne.symm noReturn.1, encoded⟩
    | cons next more =>
      rw [encode_join_cons, encoded]
      exact ⟨b, _, Ne.symm noReturn.1, rfl⟩

theorem splitHeaderFrom_lines {lines : List Text} (isLine : ∀ line ∈ lines, IsLine line)
    (some : lines ≠ []) (done rest : Bytes) :
    splitHeaderFrom done
        (Utf8.encode (join lineEnd lines) ++ (Utf8.encode (lineEnd ++ lineEnd) ++ rest)) =
      .some (done.reverse ++ Utf8.encode (join lineEnd lines), rest) := by
  induction lines generalizing done with
  | nil => exact absurd rfl some
  | cons line more ih =>
    have first := isLine line List.mem_cons_self
    cases more with
    | nil =>
      rw [join, splitHeaderFrom_line first.no_return]
      change splitHeaderFrom _ (13 :: 10 :: 13 :: 10 :: rest) = _
      rw [splitHeaderFrom]
      simp
    | cons next more =>
      have others := fun l member => isLine l (List.mem_cons_of_mem line member)
      obtain ⟨b, after, other, starts⟩ :=
        encode_join_starts (others next List.mem_cons_self) more
      have rest := ih others (by simp) ((Utf8.encode lineEnd).reverse ++
        ((Utf8.encode line).reverse ++ done))
      rw [encode_join_cons, List.append_assoc, splitHeaderFrom_line first.no_return,
        List.append_assoc]
      rw [starts, List.cons_append] at rest ⊢
      rw [splitHeaderFrom_lineEnd other, rest]
      simp

theorem splitHeader?_lines {lines : List Text} (isLine : ∀ line ∈ lines, IsLine line)
    (some : lines ≠ []) (rest : Bytes) :
    splitHeader? (Utf8.encode (join lineEnd lines ++ (lineEnd ++ lineEnd)) ++ rest) =
      .some (Utf8.encode (join lineEnd lines), rest) := by
  rw [Utf8.encode_append, List.append_assoc]
  exact splitHeaderFrom_lines isLine some [] rest

theorem splitHeaderFrom_parts {done bytes header rest : Bytes}
    (split : splitHeaderFrom done bytes = some (header, rest)) :
    ∃ front, header = done.reverse ++ front ∧ bytes = front ++ ([13, 10, 13, 10] ++ rest) := by
  fun_induction splitHeaderFrom done bytes with
  | case1 done after =>
    simp only [Option.some.injEq, Prod.mk.injEq] at split
    exact ⟨[], by simp [← split.1], by simp [← split.2]⟩
  | case2 done => cases split
  | case3 done b after other ih =>
    obtain ⟨front, atHeader, parts⟩ := ih split
    exact ⟨b :: front, by simp [atHeader], by simp [parts]⟩

theorem splitHeaderFrom_append {done bytes header rest : Bytes} (more : Bytes)
    (split : splitHeaderFrom done bytes = some (header, rest)) :
    splitHeaderFrom done (bytes ++ more) = some (header, rest ++ more) := by
  fun_induction splitHeaderFrom done bytes with
  | case1 done after =>
    simp only [Option.some.injEq, Prod.mk.injEq] at split
    simp [splitHeaderFrom, split]
  | case2 done => cases split
  | case3 done b after other ih =>
    obtain ⟨front, _, parts⟩ := splitHeaderFrom_parts split
    have several : 4 ≤ after.length := by
      rw [parts, List.length_append, List.length_append]
      simp only [List.length_cons, List.length_nil]
      omega
    rw [List.cons_append, splitHeaderFrom, ih split]
    -- An empty line here would have been there before.
    rintro longer rfl same
    have start : [10, 13, 10] <+: after := by
      have early : [10, 13, 10] <+: after ++ more := ⟨longer, same.symm⟩
      apply List.prefix_of_prefix_length_le early (List.prefix_append after more)
      simp only [List.length_cons, List.length_nil]
      omega
    obtain ⟨tail, whole⟩ := start
    exact other tail rfl whole.symm

theorem splitHeader?_incomplete {lines : List Text} (isLine : ∀ line ∈ lines, IsLine line)
    (some : lines ≠ []) {bytes more : Bytes}
    (start : bytes ++ more = Utf8.encode (join lineEnd lines ++ (lineEnd ++ lineEnd)))
    (incomplete : more ≠ []) : splitHeader? bytes = none := by
  cases split : splitHeader? bytes with
  | none => rfl
  | some parts =>
    obtain ⟨header, rest⟩ := parts
    have whole := splitHeader?_lines isLine some []
    have longer := splitHeaderFrom_append more split
    rw [List.append_nil, ← start] at whole
    have same := longer.symm.trans whole
    simp only [Option.some.injEq, Prod.mk.injEq, List.append_eq_nil_iff] at same
    exact absurd same.2.2 incomplete

theorem headerLines_line {line : Text} (noReturn : '\r' ∉ line) {rest first : Text}
    {more : List Text} (lines : headerLines rest = first :: more) :
    headerLines (line ++ rest) = (line ++ first) :: more := by
  induction line with
  | nil => exact lines
  | cons c line ih =>
    rw [List.mem_cons, not_or] at noReturn
    rw [List.cons_append, headerLines]
    · rw [ih noReturn.2]
      rfl
    · exact fun _ same _ => noReturn.1 same.symm

theorem headerLines_join {lines : List Text} (isLine : ∀ line ∈ lines, IsLine line)
    (some : lines ≠ []) : headerLines (join lineEnd lines) = lines := by
  induction lines with
  | nil => exact absurd rfl some
  | cons line more ih =>
    have noReturn : '\r' ∉ line := fun member =>
      ((isLine line List.mem_cons_self).unbroken '\r' member).1 rfl
    cases more with
    | nil =>
      have last : headerLines (line ++ []) = _ := headerLines_line noReturn rfl
      simpa [join] using last
    | cons next more =>
      have others := ih (fun l member => isLine l (List.mem_cons_of_mem line member)) (by simp)
      have broken : headerLines (lineEnd ++ join lineEnd (next :: more)) =
          [] :: (next :: more) := congrArg ([] :: ·) others
      rw [join, List.append_assoc, headerLines_line noReturn broken, List.append_nil]
      simp

def lengthLine (n : Nat) : Text := "Content-Length: ".toList ++ ofNat n

theorem lengthLine_name : ∀ c ∈ "Content-Length: ".toList,
    c.toNat < 128 ∧ c ≠ '\r' ∧ c ≠ '\n' := by simp

theorem digitChar_plain : ∀ d < 10,
    (Nat.digitChar d).toNat < 128 ∧ Nat.digitChar d ≠ '\r' ∧ Nat.digitChar d ≠ '\n' := by decide

theorem isLine_lengthLine (n : Nat) : IsLine (lengthLine n) := by
  have characters : ∀ c ∈ lengthLine n, c.toNat < 128 ∧ c ≠ '\r' ∧ c ≠ '\n' := by
    intro c member
    rcases List.mem_append.mp member with named | digit
    · exact lengthLine_name c named
    · obtain ⟨d, small, rfl⟩ := exists_digit_of_mem_ofNat digit
      exact digitChar_plain d small
  exact ⟨List.append_ne_nil_of_right_ne_nil _ (ofNat_ne_nil n),
    fun c member => (characters c member).1, fun c member => (characters c member).2⟩

theorem announced_extra {line : Text} (extra : IsExtra line) (found : Option Int)
    (more : List Text) : announced found (line :: more) = announced found more := by
  have other : (lower (trim (cut ':' line).1) == lengthName) = false := by
    simpa using extra.other
  rw [announced]
  simp [other]

theorem announced_extras {lines : List Text} (extra : ∀ line ∈ lines, IsExtra line)
    (found : Option Int) (more : List Text) :
    announced found (lines ++ more) = announced found more := by
  induction lines with
  | nil => rfl
  | cons line lines ih =>
    rw [List.cons_append, announced_extra (extra line List.mem_cons_self),
      ih fun l member => extra l (List.mem_cons_of_mem line member)]

theorem announced_lengthLine {n : Nat} (short : (ofNat n).length ≤ WholeNumber.maxDigits)
    (found : Option Int) (more : List Text) :
    announced found (lengthLine n :: more) = announced (some n) more := by
  have parts : cut ':' (lengthLine n) = ("Content-Length".toList, some (' ' :: ofNat n)) := rfl
  have named : (lower (trim "Content-Length".toList) == lengthName) = true := by decide
  have blank : trim (' ' :: ofNat n) = ofNat n := (trimmed_ofNat n).trim_eq
  rw [announced, parts]
  dsimp only
  rw [if_pos named, Option.getD_some, blank, read_ofNat short]

theorem announced_lines {before after : List Text} {n : Nat}
    (short : (ofNat n).length ≤ WholeNumber.maxDigits)
    (extra : ∀ line ∈ before ++ after, IsExtra line) :
    announced none (before ++ lengthLine n :: after) = .ok (some n) := by
  have first := fun l member => extra l (List.mem_append_left after member)
  have last := fun l member => extra l (List.mem_append_right before member)
  rw [announced_extras first, announced_lengthLine short]
  have rest := announced_extras last (some n) []
  rwa [List.append_nil] at rest

end TemplateTypes.Frame
