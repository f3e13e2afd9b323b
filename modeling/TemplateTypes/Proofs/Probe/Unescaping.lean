import TemplateTypes.Proofs.Probe.Literals

namespace TemplateTypes

open Text

/-- Puts `other` in the place of each `part`, from left to right, behind the first `skip`
    characters. -/
def replaceFrom (part other : Text) : (skip : Nat) → Text → Text
  | _, [] => []
  | skip + 1, _ :: rest => replaceFrom part other skip rest
  | 0, c :: rest =>
    if startsWith (c :: rest) part then other ++ replaceFrom part other (part.length - 1) rest
    else c :: replaceFrom part other 0 rest

def replaceAll (part other t : Text) : Text := replaceFrom part other 0 t

theorem startsWith_single (c d : Char) (t : Text) : startsWith (c :: t) [d] = (d == c) := by
  simp [startsWith, List.isPrefixOf]

theorem replaceAll_single_cons (c d : Char) (other t : Text) :
    replaceAll [d] other (c :: t) = (if c = d then other else [c]) ++ replaceAll [d] other t := by
  rw [replaceAll, replaceFrom, startsWith_single]
  by_cases same : c = d
  · rw [if_pos (by simp [same]), if_pos same]
    rfl
  · rw [if_neg (by simpa using Ne.symm same), if_neg same]
    rfl

def slashed (c : Char) : Text := if c = '\\' ∨ c = backtick then ['\\', c] else [c]

theorem replaceAll_backticks (t : Text) :
    replaceAll [backtick] ['\\', backtick] (replaceAll ['\\'] ['\\', '\\'] t) =
      t.flatMap slashed := by
  induction t with
  | nil => rfl
  | cons c t ih =>
    rw [replaceAll_single_cons, List.flatMap_cons, ← ih, slashed]
    by_cases slash : c = '\\'
    · subst slash
      rfl
    · rw [if_neg slash, List.singleton_append, replaceAll_single_cons]
      by_cases tick : c = backtick
      · rw [if_pos tick, if_pos (.inr tick), tick]
      · rw [if_neg tick, if_neg (by simp [slash, tick])]

theorem head?_flatMap_slashed (t : Text) :
    (t.flatMap slashed).head? = some '\x7b' ↔ t.head? = some '\x7b' := by
  cases t with
  | nil => rfl
  | cons c t =>
    rw [List.flatMap_cons, slashed]
    split
    · rename_i special
      rcases special with rfl | rfl <;> simp +decide
    · rfl

theorem replaceAll_dollar_cons (c : Char) (t : Text) :
    replaceAll ['$', '\x7b'] ['\\', '$', '\x7b'] (c :: t) =
      (if c = '$' ∧ t.head? = some '\x7b' then ['\\', c] else [c]) ++
        replaceAll ['$', '\x7b'] ['\\', '$', '\x7b'] t := by
  by_cases dollar : c = '$' ∧ t.head? = some '\x7b'
  · obtain ⟨rfl, brace⟩ := dollar
    obtain ⟨rest, rfl⟩ := List.head?_eq_some_iff.mp brace
    rfl
  · have other : startsWith (c :: t) ['$', '\x7b'] = false := by
      rw [Bool.eq_false_iff]
      intro starts
      cases t with
      | nil => simp [startsWith, List.isPrefixOf] at starts
      | cons d t =>
        simp only [startsWith, List.isPrefixOf, Bool.and_eq_true, beq_iff_eq, and_true] at starts
        exact dollar ⟨starts.1.symm, by rw [← starts.2]; rfl⟩
    rw [replaceAll, replaceFrom, other, if_neg dollar]
    rfl

theorem escapeTemplate_eq_replaceAll (t : Text) :
    escapeTemplate t = replaceAll ['$', '\x7b'] ['\\', '$', '\x7b']
      (replaceAll [backtick] ['\\', backtick] (replaceAll ['\\'] ['\\', '\\'] t)) := by
  rw [replaceAll_backticks]
  induction t with
  | nil => rfl
  | cons c t ih =>
    rw [escapeTemplate_cons, ih, List.flatMap_cons, slashed]
    split
    · rename_i special
      -- Neither the backslash put in nor the character behind it is a `$`.
      rw [List.cons_append, List.cons_append, replaceAll_dollar_cons, replaceAll_dollar_cons]
      rcases special with rfl | rfl <;> simp +decide [escapedChar, isEscapedBefore]
    · rename_i plain
      rw [not_or] at plain
      rw [List.singleton_append, replaceAll_dollar_cons]
      simp only [head?_flatMap_slashed]
      simp [escapedChar, isEscapedBefore, plain]

/-- A character as it is read: with `escaped`, a backslash stands for it. -/
structure ReadChar where
  char : Char
  escaped : Bool
  deriving DecidableEq, Repr

/-- What a text says from left to right, a backslash standing for the character behind it. A text
    that ends in a backslash that stands for nothing says nothing. -/
def readEscapes? : Text → Option (List ReadChar)
  | [] => some []
  | ['\\'] => none
  | '\\' :: c :: rest => (readEscapes? rest).map (⟨c, true⟩ :: ·)
  | c :: rest => (readEscapes? rest).map (⟨c, false⟩ :: ·)

theorem readEscapes?_plain {c : Char} (noSlash : c ≠ '\\') (rest : Text) :
    readEscapes? (c :: rest) = (readEscapes? rest).map (⟨c, false⟩ :: ·) := by
  rw [readEscapes?]
  · exact fun same _ => noSlash same
  · exact fun _ _ same _ => noSlash same

/-- The characters of a text, each with whether escaping puts a backslash in front of it. -/
def escapeMarks : Text → List ReadChar
  | [] => []
  | c :: rest => ⟨c, isEscapedBefore c rest.head?⟩ :: escapeMarks rest

theorem readEscapes?_eq_escapeMarks (t : Text) :
    readEscapes? (escapeTemplate t) = some (escapeMarks t) := by
  induction t with
  | nil => rfl
  | cons c t ih =>
    rw [escapeTemplate_cons, escapedChar, escapeMarks]
    cases escaped : isEscapedBefore c t.head? with
    | true => simp [readEscapes?, ih]
    | false =>
      have noSlash : c ≠ '\\' := by
        rintro rfl
        cases escaped
      rw [if_neg (by simp), List.singleton_append, readEscapes?_plain noSlash, ih]
      rfl

theorem map_char_escapeMarks (t : Text) : (escapeMarks t).map (·.char) = t := by
  induction t with
  | nil => rfl
  | cons c t ih => rw [escapeMarks, List.map_cons, ih]

theorem backtick_escaped (t : Text) : ⟨backtick, false⟩ ∉ escapeMarks t := by
  induction t with
  | nil => simp [escapeMarks]
  | cons c t ih =>
    rw [escapeMarks, List.mem_cons, not_or]
    refine ⟨?_, ih⟩
    rintro ⟨⟩

theorem head?_escapeMarks (t : Text) : (escapeMarks t).head?.map (·.char) = t.head? := by
  cases t <;> rfl

theorem dollar_escaped (t : Text) (escaped : Bool) :
    ¬ [⟨'$', false⟩, ⟨'\x7b', escaped⟩] <:+: escapeMarks t := by
  induction t with
  | nil => simp [escapeMarks]
  | cons c t ih =>
    rw [escapeMarks, List.infix_cons_iff, not_or]
    refine ⟨?_, ih⟩
    intro here
    obtain ⟨same, behind⟩ := List.cons_prefix_cons.mp here
    obtain ⟨rest, next⟩ := behind
    have brace : t.head? = some '\x7b' := by
      rw [← head?_escapeMarks, ← next]
      rfl
    rw [brace] at same
    cases same

/-- What an escaped text says is the text, with no backtick and no `$` in front of a brace that
    does not stand behind a backslash. So a template literal that holds it ends at the backtick put
    behind it and embeds no expression. -/
theorem readEscapes?_escapeTemplate (t : Text) :
    escapeTemplate t = replaceAll ['$', '\x7b'] ['\\', '$', '\x7b']
        (replaceAll [backtick] ['\\', backtick] (replaceAll ['\\'] ['\\', '\\'] t)) ∧
      (∃ read, readEscapes? (escapeTemplate t) = some read ∧ read.map (·.char) = t ∧
        ⟨backtick, false⟩ ∉ read ∧
        ∀ escaped, ¬ [⟨'$', false⟩, ⟨'\x7b', escaped⟩] <:+: read) ∧
      ∀ rest, Probe.readTemplate (escapeTemplate t ++ backtick :: rest) = some (t, rest) := by
  refine ⟨escapeTemplate_eq_replaceAll t, ⟨escapeMarks t, readEscapes?_eq_escapeMarks t,
    map_char_escapeMarks t, backtick_escaped t, dollar_escaped t⟩, ?_⟩
  exact Probe.readTemplate_escapeTemplate t

-- A backslash of the text does not pair up with the one put in behind it.
example : escapeTemplate "\\$\x7b\\\x60".toList = "\\\\\\$\x7b\\\\\\\x60".toList := by decide

def PartsDollar (t : Text) (offset : Nat) : Prop :=
  0 < offset ∧ t[offset - 1]? = some '$' ∧ t[offset]? = some '\x7b'

instance (t : Text) (offset : Nat) : Decidable (PartsDollar t offset) :=
  inferInstanceAs (Decidable (_ ∧ _ ∧ _))

theorem partsDollar_iff (t : Text) (offset : Nat) :
    PartsDollar t offset ↔
      (t.take offset).getLast? = some '$' ∧ (t.drop offset).head? = some '\x7b' := by
  rw [PartsDollar, List.head?_drop, List.getLast?_take]
  by_cases start : offset = 0
  · simp [start]
  · rw [if_neg start, ← and_assoc]
    refine and_congr_left fun brace => ?_
    have within := (List.getElem?_eq_some_iff.mp brace).1
    obtain ⟨c, before⟩ : ∃ c, t[offset - 1]? = some c :=
      ⟨_, List.getElem?_eq_getElem (by omega)⟩
    rw [before, Option.some_or]
    exact and_iff_right (Nat.pos_of_ne_zero start)

theorem escapeTemplate_of_parts {a b : Text} (dollar : a.getLast? = some '$')
    (brace : b.head? = some '\x7b') :
    (escapeTemplate (a ++ b)).take (escapeTemplate a).length ≠ escapeTemplate a := by
  obtain ⟨before, rfl⟩ := List.getLast?_eq_some_iff.mp dollar
  obtain ⟨behind, rfl⟩ := List.head?_eq_some_iff.mp brace
  have apart : ∀ u : Text, u.head? = some '$' →
      escapeTemplate (before ++ u) = escapeTemplate before ++ escapeTemplate u := by
    intro u first
    apply escapeTemplate_append
    rintro ⟨_, other⟩
    rw [first] at other
    cases other
  have front : escapeTemplate (before ++ ['$']) = escapeTemplate before ++ ['$'] := apart _ rfl
  have whole : escapeTemplate (before ++ ['$'] ++ '\x7b' :: behind) =
      escapeTemplate before ++ '\\' :: '$' :: escapeTemplate ('\x7b' :: behind) := by
    rw [List.append_assoc, apart _ rfl]
    rfl
  rw [front, whole, List.length_append, List.length_singleton, List.take_length_add_append]
  simp

/-- Cut where an offset of the text stands, the escaped text falls into what the parts of the text
    become, just where the offset does not part a `$` from its brace. Offsets keep their order. -/
theorem escapeTemplate_cut_iff (t : Text) :
    (∀ offset : Nat,
      (escapeTemplate t).drop (escapedOffset t offset) = escapeTemplate (t.drop offset) ∧
        (escapeTemplate t).take (escapedOffset t offset) = escapeTemplate (t.take offset) ↔
      ¬ PartsDollar t offset) ∧
    ∀ i j : Nat, i < j → j ≤ t.length → escapedOffset t i < escapedOffset t j := by
  refine ⟨fun offset => ?_, fun i j => escapedOffset_strictMono⟩
  rw [partsDollar_iff, escapedOffset_natCast]
  constructor
  · rintro ⟨_, front⟩ ⟨dollar, brace⟩
    have parted := escapeTemplate_of_parts dollar brace
    rw [List.take_append_drop] at parted
    exact parted front
  · intro apart
    have whole := escapeTemplate_append apart
    rw [List.take_append_drop] at whole
    rw [whole]
    exact ⟨List.drop_left, List.take_left⟩

/-- In front of the escaped `$` the text may be cut, behind it not. -/
theorem escapeTemplate_cut_iff_dollar :
    let t := "\\$\x7bx".toList
    (escapeTemplate t).take (escapedOffset t (1 : Nat)) = escapeTemplate (t.take 1) ∧
      ¬ ((escapeTemplate t).drop (escapedOffset t (2 : Nat)) = escapeTemplate (t.drop 2) ∧
        (escapeTemplate t).take (escapedOffset t (2 : Nat)) = escapeTemplate (t.take 2)) ∧
      1 < 2 ∧ 2 ≤ t.length ∧ escapedOffset t (1 : Nat) < escapedOffset t (2 : Nat) := by
  intro t
  obtain ⟨cuts, ordered⟩ := escapeTemplate_cut_iff t
  have before : ¬ PartsDollar t 1 := by decide
  have between : PartsDollar t 2 := by decide
  exact ⟨((cuts 1).mpr before).2, fun both => (cuts 2).mp both between, by decide, by decide,
    ordered 1 2 (by decide) (by decide)⟩

end TemplateTypes
