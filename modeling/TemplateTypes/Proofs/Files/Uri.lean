import TemplateTypes.Files.Uri
import TemplateTypes.Proofs.Files.Path
import TemplateTypes.Proofs.Text.Utf8

namespace TemplateTypes

open Text

namespace Uri

theorem hexValue?_upper_digitChar : ∀ d < 16, hexValue? (Nat.digitChar d).toUpper = some d := by
  decide

theorem hexByte?_escape (b : UInt8) (rest : Text) :
    hexByte? ((hex 2 b.toNat).map Char.toUpper ++ rest) = some b := by
  have high : hexValue? (hexDigit (b.toNat / 16)).toUpper = some (b.toNat / 16 % 16) :=
    hexValue?_upper_digitChar _ (Nat.mod_lt _ (by decide))
  have low : hexValue? (hexDigit b.toNat).toUpper = some (b.toNat % 16) :=
    hexValue?_upper_digitChar _ (Nat.mod_lt _ (by decide))
  have bound := b.toNat_lt
  have joined : b.toNat / 16 % 16 * 16 + b.toNat % 16 = b.toNat := by omega
  simp only [hex, List.nil_append, List.map_cons, List.map_nil, List.cons_append, hexByte?, high,
    low, joined]
  simp

theorem toNat_ofNat_ascii : ∀ n < 128, (Char.ofNat n).toNat = n := by decide +kernel

theorem percentBytesFrom_encodeByte (b : UInt8) (rest : Text) :
    percentBytesFrom 0 (encodeByte b ++ rest) = b :: percentBytesFrom 0 rest := by
  unfold encodeByte
  split
  · rename_i unreserved
    obtain ⟨ascii, sign⟩ := Bool.and_eq_true_iff.mp unreserved
    have plain : (Char.ofNat b.toNat == '%') = false := by
      rw [beq_eq_false_iff_ne]
      intro percent
      rw [percent] at sign
      exact absurd sign (by decide)
    have own : (Char.ofNat b.toNat).toNat.toUInt8 = b := by
      rw [toNat_ofNat_ascii b.toNat (of_decide_eq_true ascii)]
      simp
    rw [List.singleton_append, percentBytesFrom, plain, own]
    simp
  · rw [List.cons_append, percentBytesFrom]
    simp only [beq_self_eq_true, ↓reduceIte, hexByte?_escape]
    rfl

theorem percentBytesFrom_encoded (bytes : Bytes) :
    percentBytesFrom 0 (bytes.flatMap encodeByte) = bytes := by
  induction bytes with
  | nil => rfl
  | cons b bytes ih => rw [List.flatMap_cons, percentBytesFrom_encodeByte, ih]

def isPathChar (c : Char) : Bool := 32 < c.toNat && c.toNat < 127 && c != '?' && c != '#'

theorem isPathChar_encodeByte : ∀ n < 256, (encodeByte n.toUInt8).all isPathChar = true := by
  decide +kernel

theorem isPathChar_of_mem {bytes : Bytes} {c : Char} (member : c ∈ bytes.flatMap encodeByte) :
    isPathChar c = true := by
  obtain ⟨b, _, own⟩ := List.mem_flatMap.mp member
  have each := isPathChar_encodeByte b.toNat b.toNat_lt
  rw [Nat.toUInt8_eq, UInt8.ofNat_toNat] at each
  exact List.all_eq_true.mp each c own

theorem isPathChar_iff {c : Char} : isPathChar c = true ↔
    32 < c.toNat ∧ c.toNat < 127 ∧ c ≠ '?' ∧ c ≠ '#' := by
  simp [isPathChar, and_assoc]

theorem unquote_ascii {t : Text} (ascii : ∀ c ∈ t, c.toNat < 128) :
    unquote t = Utf8.decodeReplacing (percentBytesFrom 0 t) := by
  have read : ∀ run : Text, unquoteFrom run t =
      Utf8.decodeReplacing (percentBytesFrom 0 (run.reverse ++ t)) := by
    induction t with
    | nil => simp [unquoteFrom]
    | cons c t ih =>
      intro run
      rw [unquoteFrom, if_pos (ascii c List.mem_cons_self),
        ih fun d member => ascii d (List.mem_cons_of_mem c member)]
      simp
  exact read []

theorem unquote_encoded (t : Text) : unquote ((Utf8.encode t).flatMap encodeByte) = t := by
  have ascii : ∀ c ∈ (Utf8.encode t).flatMap encodeByte, c.toNat < 128 := by
    intro c member
    have upper := (isPathChar_iff.mp (isPathChar_of_mem member)).2.1
    omega
  rw [unquote_ascii ascii, percentBytesFrom_encoded, Utf8.decodeReplacing_encode]

theorem cleaned_eq {uri : Text} (visible : ∀ c ∈ uri, 32 < c.toNat) : cleaned uri = uri := by
  have start : uri.dropWhile (fun c => c.toNat ≤ 32) = uri := by
    cases uri with
    | nil => rfl
    | cons c rest =>
      have first := visible c List.mem_cons_self
      rw [List.dropWhile_cons_of_neg (by simpa using first)]
  rw [cleaned, start, List.filter_eq_self]
  intro c member
  have code := visible c member
  have tab : c ≠ '\t' := by rintro rfl; exact absurd code (by decide)
  have feed : c ≠ '\n' := by rintro rfl; exact absurd code (by decide)
  have carriage : c ≠ '\r' := by rintro rfl; exact absurd code (by decide)
  simp [tab, feed, carriage]

theorem splitScheme_file (rest : Text) : splitScheme (scheme ++ ':' :: rest) = (scheme, rest) := rfl

theorem takeWhile_ne_of_not_mem {c : Char} {t : Text} (absent : c ∉ t) :
    t.takeWhile (· != c) = t := by
  rw [List.takeWhile_eq_self_iff]
  intro d member
  rw [bne_iff_ne]
  rintro rfl
  exact absent member

theorem toPath_file {written : Text} (rooted : written.head? = some '/')
    (plain : ∀ c ∈ written, isPathChar c = true) :
    toPath ("file://".toList ++ written) = .ok (.ofText (unquote written)) := by
  have parts : "file://".toList ++ written = scheme ++ ':' :: '/' :: '/' :: written := rfl
  have visible : ∀ c ∈ "file://".toList ++ written, 32 < c.toNat := by
    intro c member
    have signs : "file://".toList.all (fun c => 32 < c.toNat) = true := by decide
    rcases List.mem_append.mp member with opening | member
    · exact of_decide_eq_true (List.all_eq_true.mp signs c opening)
    · exact (isPathChar_iff.mp (plain c member)).1
  have noHost : authority ('/' :: '/' :: written) = ([], written) := by
    obtain ⟨rest, rfl⟩ : ∃ rest, written = '/' :: rest := ⟨_, List.eq_cons_of_mem_head? rooted⟩
    simp [authority]
  have noFragment : '#' ∉ written := fun member => (isPathChar_iff.mp (plain _ member)).2.2.2 rfl
  have noQuery : '?' ∉ written := fun member => (isPathChar_iff.mp (plain _ member)).2.2.1 rfl
  have hostless : Host.fault? [] = none := rfl
  rw [toPath, cleaned_eq visible, parts, splitScheme_file]
  simp only [noHost, hostless, bne_self_eq_false, Bool.false_eq_true, ↓reduceIte,
    takeWhile_ne_of_not_mem noFragment, takeWhile_ne_of_not_mem noQuery]

theorem toPath_ofPath {p : Path} (proper : p.Proper) (absolute : p.root ≠ []) :
    toPath (ofPath p) = .ok p := by
  have rooted : ((Utf8.encode p.toText).flatMap encodeByte).head? = some '/' := by
    obtain ⟨rest, written⟩ := List.isPrefixOf_iff_prefix.mp (proper.startsWith_toText absolute)
    rw [← written]
    rfl
  have plain : ∀ c ∈ (Utf8.encode p.toText).flatMap encodeByte, isPathChar c = true :=
    fun _ => isPathChar_of_mem
  unfold ofPath
  rw [toPath_file rooted plain, unquote_encoded, proper.ofText_toText_of_absolute absolute]

end Uri

end TemplateTypes
