import TemplateTypes.Proofs.TypeText.Respacing
import TemplateTypes.Proofs.TypeText.Signature

namespace TemplateTypes

open Text TypeText

def tidyEnd (t : Text) : Text := trimEnd (dropEndWhile (· == ';') (trimEnd (collapse t)))

theorem tidy_append_cons {a : Text} {c : Char} (front : ∀ d ∈ a.head?, isBlank d = false)
    (solid : isBlank c = false) (other : c ≠ ';') (t : Text) :
    tidy (a ++ c :: t) = collapse a ++ c :: tidyEnd t := by
  have collapsed : ∀ d ∈ (collapse a).head?, isBlank d = false := by
    cases a with
    | nil => exact front
    | cons b a =>
      rw [collapse, collapseFrom_cons (front b rfl)]
      rintro _ ⟨⟩
      exact front b rfl
  have cut := dropEndWhile_append_cons (p := (· == ';')) (beq_false_of_ne other)
  have whole : trimStart (collapse a) = collapse a := Trimmed.dropWhile_blank collapsed
  rw [tidy, collapse, collapseFrom_append_cons solid, ← collapse, trim_append_cons solid, whole,
    cut, trim_append_cons solid, whole, tidyEnd]

def Anchored (t : Text) : Prop := ∃ c rest, t = c :: rest ∧ isBlank c = false ∧ c ∉ signs

theorem Anchored.exists_tidy {t : Text} (anchored : Anchored t) :
    ∃ c rest, c ∉ signs ∧ tidy t = c :: rest ∧
      ∀ a : Text, (∀ d ∈ a.head?, isBlank d = false) → tidy (a ++ t) = collapse a ++ c :: rest := by
  obtain ⟨c, rest, rfl, solid, noSign⟩ := anchored
  have other : c ≠ ';' := by
    rintro rfl
    exact noSign (by decide)
  have behind := fun a front => tidy_append_cons (a := a) front solid other rest
  exact ⟨c, tidyEnd rest, noSign, behind [] (by simp), behind⟩

theorem Anchored.tidy_append {t a : Text} (anchored : Anchored t)
    (front : ∀ c ∈ a.head?, isBlank c = false) : tidy (a ++ t) = collapse a ++ tidy t := by
  obtain ⟨c, rest, _, alone, behind⟩ := anchored.exists_tidy
  rw [behind a front, alone]

namespace Signature

/-- The kind of a declaration in parentheses and the white space behind it, if there is any. -/
inductive IsLabel : Text → Prop
  | mk {first : Char} {kind gap : Text} : first.isAlpha = true →
      kind.all (fun c => isWord c || isBlank c) = true → allBlank gap = true →
      IsLabel ('(' :: first :: (kind ++ ')' :: gap))

/-- Modifiers in any number and order, with white space behind each. -/
inductive AreModifiers : Text → Prop
  | nil : AreModifiers []
  | cons {modifier gap more : Text} : modifier ∈ modifiers → gap ≠ [] → allBlank gap = true →
      AreModifiers more → AreModifiers (modifier ++ (gap ++ more))

theorem withoutLabel_tidy {label t : Text} (isLabel : IsLabel label) (anchored : Anchored t) :
    withoutLabel (tidy (label ++ t)) = tidy t := by
  cases isLabel with
  | @mk first kind gap letter within blank =>
    have opens : isBlank '(' = false := by decide
    have closes : isBlank ')' = false := by decide
    have solid : isBlank first = false := by
      apply namesOnly_isNamePart.solid
      exact isNamePart_of_isNameStart (by simp [isNameStart, letter])
    have collapsed : collapse ('(' :: first :: (kind ++ ')' :: gap)) =
        '(' :: first :: (collapse kind ++ ')' :: collapse gap) := by
      rw [collapse, collapseFrom_cons opens, collapse, collapseFrom_cons solid, collapse,
        collapseFrom_append_cons closes, ← collapse]
    have words : ∀ c ∈ collapse kind, (isWord c || c == ' ') = true := by
      intro c member
      rcases mem_collapseFrom member with rfl | inside
      · simp
      · rcases Bool.or_eq_true_iff.mp (List.all_eq_true.mp within c inside) with word | blank
        · simp [word]
        · simp [(singleSpaced_collapse kind).onlySpaces c member blank]
    have gone : trimStart (collapse gap ++ tidy t) = tidy t := by
      have blanks : allBlank (collapse gap) = true := (allBlank_collapseFrom false gap).trans blank
      rw [trimStart, List.dropWhile_append_of_pos (List.all_eq_true.mp blanks)]
      exact Trimmed.dropWhile_blank (trimmed_tidy t).front
    rw [anchored.tidy_append (by simp [opens]), collapsed]
    simp only [List.cons_append, List.append_assoc]
    rw [withoutLabel_label letter words, gone]

theorem withoutLabel_of_not_mem {c : Char} (noSign : c ∉ signs) (t : Text) :
    withoutLabel (c :: t) = c :: t := by
  have differs : c ≠ '(' := by
    rintro rfl
    exact noSign (by decide)
  simp [withoutLabel, differs]

theorem modifier_facts : ∀ modifier ∈ modifiers,
    modifier ≠ [] ∧ ∀ c ∈ modifier, isBlank c = false ∧ c ∉ signs := by
  have all : (modifiers.all fun modifier =>
      !modifier.isEmpty && modifier.all fun c => !isBlank c && !signs.contains c) = true := by
    decide +kernel
  simpa using all

theorem AreModifiers.anchored {words t : Text} (are : AreModifiers words) (anchored : Anchored t) :
    Anchored (words ++ t) := by
  cases are with
  | nil => exact anchored
  | @cons modifier gap more known _ _ _ =>
    obtain ⟨some, facts⟩ := modifier_facts modifier known
    obtain ⟨c, rest, rfl⟩ := List.exists_cons_of_ne_nil some
    obtain ⟨solid, noSign⟩ := facts c List.mem_cons_self
    exact ⟨c, rest ++ (gap ++ more) ++ t, by simp, solid, noSign⟩

theorem withoutModifiers_modifier {modifier : Text} (known : modifier ∈ modifiers) (t : Text) :
    withoutModifiers (modifier ++ ' ' :: t) = withoutModifiers t := by
  have oneWord : ' ' ∉ modifier := by
    intro member
    exact absurd ((modifier_facts modifier known).2 ' ' member).1 (by decide)
  obtain ⟨piece, more, words⟩ := List.exists_cons_of_ne_nil (pieces_ne_nil ' ' t)
  have dropped : dropModifiers (modifier :: piece :: more) = dropModifiers (piece :: more) :=
    if_pos known
  rw [withoutModifiers, withoutModifiers, pieces_append_separator oneWord, words, dropped]

theorem withoutModifiers_tidy {words t : Text} (are : AreModifiers words) (anchored : Anchored t) :
    withoutModifiers (tidy (words ++ t)) = withoutModifiers (tidy t) := by
  induction are with
  | nil => rfl
  | @cons modifier gap more known some blank later ih =>
    obtain ⟨nonempty, facts⟩ := modifier_facts modifier known
    have solid : ∀ c ∈ modifier, isBlank c = false := fun c member => (facts c member).1
    have front : ∀ c ∈ (modifier ++ gap).head?, isBlank c = false := by
      obtain ⟨c, rest, rfl⟩ := List.exists_cons_of_ne_nil nonempty
      rintro _ ⟨⟩
      exact solid c List.mem_cons_self
    have space : collapse gap = [' '] := by
      have run := collapseFrom_run some blank false []
      rw [List.append_nil] at run
      exact run
    have text : modifier ++ (gap ++ more) ++ t = modifier ++ gap ++ (more ++ t) := by simp
    rw [text, (later.anchored anchored).tidy_append front, collapse_append_of_solid solid, space,
      List.append_assoc, List.singleton_append, withoutModifiers_modifier known, ih]

inductive IsDottedName : Text → Prop
  | name {name : Text} : isMemberName name = true → IsDottedName name
  | member {name rest : Text} : isMemberName name = true → IsDottedName rest →
      IsDottedName (name ++ '.' :: rest)

/-- A bracket that stays open up to the last one, as the scanner reads them. -/
structure IsTypeParameters (t : Text) : Prop where
  opens : t.head? = some '<'
  closes : t.getLast? = some '>'
  within : ∀ n < t.length, 0 < n → 0 < (Scanner.start.run (t.take n)).depth
  balanced : Closes t

theorem namesOnly_isMemberStart : NamesOnly isMemberStart := namesOnly_of_all (by decide +kernel)

theorem exists_of_isMemberName {name : Text} (readable : isMemberName name = true) :
    ∃ c rest, name = c :: rest ∧ isMemberStart c = true ∧ ∀ d ∈ rest, isNamePart d = true := by
  cases name with
  | nil => cases readable
  | cons c rest =>
    rw [isMemberName, Bool.and_eq_true, List.all_eq_true] at readable
    exact ⟨c, rest, rfl, readable⟩

theorem IsDottedName.starts {t : Text} (dotted : IsDottedName t) :
    ∃ c rest, t = c :: rest ∧ isMemberStart c = true := by
  cases dotted with
  | name readable =>
    obtain ⟨c, rest, rfl, starts, _⟩ := exists_of_isMemberName readable
    exact ⟨c, rest, rfl, starts⟩
  | @member name later readable _ =>
    obtain ⟨c, rest, rfl, starts, _⟩ := exists_of_isMemberName readable
    exact ⟨c, rest ++ '.' :: later, rfl, starts⟩

theorem IsDottedName.solid {t : Text} (dotted : IsDottedName t) : ∀ c ∈ t, isBlank c = false := by
  have own : ∀ {name : Text}, isMemberName name = true → ∀ c ∈ name, isBlank c = false := by
    intro name readable
    obtain ⟨d, rest, rfl, starts, parts⟩ := exists_of_isMemberName readable
    exact List.forall_mem_cons.mpr ⟨namesOnly_isMemberStart.solid d starts,
      fun c member => namesOnly_isNamePart.solid c (parts c member)⟩
  induction dotted with
  | name readable => exact own readable
  | member readable _ ih =>
    exact List.forall_mem_append.mpr
      ⟨own readable, List.forall_mem_cons.mpr ⟨by decide, ih⟩⟩

theorem IsDottedName.afterMember?_append {name : Text} (dotted : IsDottedName name) {c : Char}
    (noPart : isNamePart c = false) (noDot : c ≠ '.') (t : Text) :
    afterMember? (name ++ c :: t) = some (c :: t) := by
  induction dotted with
  | name readable =>
    obtain ⟨d, rest, rfl, starts, parts⟩ := exists_of_isMemberName readable
    rw [List.cons_append, afterMember?, if_pos starts, afterMemberPart_append parts,
      afterMemberPart_cons noDot, noPart]
    rfl
  | member readable later ih =>
    obtain ⟨d, rest, rfl, starts, parts⟩ := exists_of_isMemberName readable
    obtain ⟨e, behind, rfl, next⟩ := later.starts
    rw [List.cons_append, afterMember?, if_pos next] at ih
    rw [List.append_assoc, List.cons_append, List.cons_append, afterMember?, if_pos starts,
      afterMemberPart_append parts, List.cons_append, afterMemberPart, if_pos next, ih]

theorem afterAngle?_append {a : Text} {s : Scanner} (misses : s.Misses '>' a) (t : Text) :
    afterAngle? s (a ++ t) = afterAngle? (s.run a) t := by
  induction a generalizing s with
  | nil => rfl
  | cons c a ih =>
    rw [List.cons_append, afterAngle?, if_neg (by simp [misses.1]), ih misses.2]
    rfl

theorem misses_of_depth {target : Char} {a : Text} {s : Scanner}
    (deep : ∀ n ≤ a.length, 0 < n → 0 < (s.run (a.take n)).depth) : s.Misses target a := by
  induction a generalizing s with
  | nil => trivial
  | cons c a ih =>
    have here : 0 < (s.next c).depth := deep 1 (by simp) (by simp)
    refine ⟨by simp [Scanner.seesTop, Nat.ne_of_gt here], ih fun n within some => ?_⟩
    exact deep (n + 1) (by simpa using within) (by omega)

theorem seesTop_of_next {s : Scanner} (proper : s.Proper) {c : Char} (noQuote : isQuote c = false)
    (outside : (s.next c).depth = 0 ∧ (s.next c).quote = none) : s.seesTop c = true := by
  cases inside : s.quote with
  | none => simpa [Scanner.seesTop, Scanner.sees, inside, noQuote] using outside.1
  | some quote =>
    have differs : c ≠ quote := by
      rintro rfl
      rw [proper c inside] at noQuote
      cases noQuote
    rw [Scanner.next_quoted inside (.inl differs)] at outside
    cases outside.2

theorem IsTypeParameters.afterAngle?_collapse {p : Text} (are : IsTypeParameters p) (t : Text) :
    afterAngle? .start (collapse p ++ t) = some t := by
  obtain ⟨body, rfl⟩ := List.getLast?_eq_some_iff.mp are.closes
  have misses : Scanner.start.Misses '>' body := by
    apply misses_of_depth
    intro n inside some
    have deep := are.within n (by rw [List.length_append]; exact Nat.lt_succ_of_le inside) some
    rwa [List.take_append_of_le_length inside] at deep
  have outside : false = true → Scanner.start.Rested := by simp
  obtain ⟨passed, alike⟩ := misses_collapseFrom (by decide) Scanner.proper_start
    (Scanner.alike_refl .start) outside misses
  have ended : Scanner.start.run (body ++ ['>']) = (Scanner.start.run body).next '>' :=
    Scanner.run_append .start body ['>']
  have balanced := are.balanced
  rw [Closes, ended] at balanced
  have seen : (Scanner.start.run body).seesTop '>' = true :=
    seesTop_of_next (Scanner.proper_start.run body) (by decide) balanced
  rw [collapse, collapseFrom_append_cons (by decide), List.append_assoc, afterAngle?_append passed,
    List.cons_append, afterAngle?, ← alike.seesTop_eq, seen]
  rfl

theorem IsTypeParameters.exists_collapse {p : Text} (are : IsTypeParameters p) :
    ∃ rest, collapse p = '<' :: rest := by
  obtain ⟨rest, text⟩ := List.head?_eq_some_iff.mp are.opens
  exact ⟨collapse rest, by rw [text, collapse, collapseFrom_cons (by decide)]⟩

theorem methodTail?_generic {name p : Text} (dotted : IsDottedName name)
    (are : IsTypeParameters p) (t : Text) :
    methodTail? (name ++ (collapse p ++ '(' :: t)) = some ('(' :: t) := by
  have read := are.afterAngle?_collapse ('(' :: t)
  obtain ⟨rest, text⟩ := are.exists_collapse
  rw [text, List.cons_append] at read ⊢
  rw [methodTail?, dotted.afterMember?_append (by decide) (by decide)]
  simp [afterTypeParameters, read]

theorem methodTail?_plain {name : Text} (dotted : IsDottedName name) (t : Text) :
    methodTail? (name ++ '(' :: t) = some ('(' :: t) := by
  rw [methodTail?, dotted.afterMember?_append (by decide) (by decide)]
  simp [afterTypeParameters]

theorem IsDottedName.read_eq {name : Text} (dotted : IsDottedName name) {sign : Char}
    (isSign : sign ∈ signs) (t : Text) :
    withoutModifiers (withoutLabel (name ++ sign :: t)) = name ++ sign :: t := by
  have oneWord : ' ' ∉ name := fun member => absurd (dotted.solid ' ' member) (by decide)
  have noLabel : withoutLabel (name ++ sign :: t) = name ++ sign :: t := by
    obtain ⟨c, rest, rfl, starts⟩ := dotted.starts
    exact withoutLabel_of_not_mem (namesOnly_isMemberStart.plain c starts) _
  rw [noLabel, withoutModifiers_sign isSign oneWord]

/-- What may be done to a signature that leaves the type it declares. -/
inductive Decorated : Text → Text → Prop
  | labelled {label words s : Text} : IsLabel label → AreModifiers words →
      Decorated s (label ++ (words ++ s))
  | modified {words s : Text} : AreModifiers words → Decorated s (words ++ s)
  | respaced {s t : Text} : Respaced s t → Decorated s t
  | generic {name parameters rest : Text} : IsDottedName name → IsTypeParameters parameters →
      Decorated (name ++ '(' :: rest) (name ++ (parameters ++ '(' :: rest))

theorem declared_congr {t u : Text}
    (same : withoutModifiers (withoutLabel (tidy t)) = withoutModifiers (withoutLabel (tidy u))) :
    declared t = declared u := by
  rw [declared, declared, same]

theorem declared_method {t u tail : Text}
    (read : withoutModifiers (withoutLabel (tidy t)) = u) (method : methodTail? u = some tail) :
    declared t = methodType tail := by
  rw [declared, read]
  simp only [method]

theorem declared_generic {name parameters : Text} (dotted : IsDottedName name)
    (are : IsTypeParameters parameters) (rest : Text) :
    declared (name ++ (parameters ++ '(' :: rest)) = declared (name ++ '(' :: rest) := by
  have opens : isBlank '(' = false := by decide
  have other : '(' ≠ ';' := by decide
  have front : ∀ a, ∀ c ∈ (name ++ a).head?, isBlank c = false := by
    obtain ⟨c, name, rfl, starts⟩ := dotted.starts
    rintro a _ ⟨⟩
    exact namesOnly_isMemberStart.solid c starts
  have plain : tidy (name ++ '(' :: rest) = name ++ '(' :: tidyEnd rest := by
    have whole := front []
    rw [List.append_nil] at whole
    rw [tidy_append_cons whole opens other, collapse_of_solid dotted.solid]
  have generic : tidy (name ++ (parameters ++ '(' :: rest)) =
      name ++ (collapse parameters ++ '(' :: tidyEnd rest) := by
    rw [← List.append_assoc, tidy_append_cons (front parameters) opens other,
      collapse_append_of_solid dotted.solid, List.append_assoc]
  have isSign : '(' ∈ signs := by decide
  have readPlain := dotted.read_eq isSign (tidyEnd rest)
  have readGeneric : withoutModifiers
      (withoutLabel (name ++ (collapse parameters ++ '(' :: tidyEnd rest))) =
        name ++ (collapse parameters ++ '(' :: tidyEnd rest) := by
    obtain ⟨more, text⟩ := are.exists_collapse
    rw [text]
    exact dotted.read_eq (by decide) _
  rw [← plain] at readPlain
  rw [← generic] at readGeneric
  rw [declared_method readPlain (plain ▸ methodTail?_plain dotted _),
    declared_method readGeneric (generic ▸ methodTail?_generic dotted are _)]

/-- A signature that starts with a member name declares the same type, optional or not, when a
    label, modifiers or both are put in front of it, when its white space is replaced, and when type
    parameters are put behind the name of a method. -/
theorem declared_decorated {c : Char} {rest t : Text} (starts : isMemberStart c = true)
    (decorated : Decorated (c :: rest) t) : declared t = declared (c :: rest) := by
  have anchored : Anchored (c :: rest) :=
    ⟨c, rest, rfl, namesOnly_isMemberStart.solid c starts, namesOnly_isMemberStart.plain c starts⟩
  have unlabelled : ∀ {u : Text}, Anchored u → withoutLabel (tidy u) = tidy u := by
    intro u anchored
    obtain ⟨d, more, noSign, tidied, _⟩ := anchored.exists_tidy
    rw [tidied, withoutLabel_of_not_mem noSign]
  generalize c :: rest = s at decorated anchored
  cases decorated with
  | labelled isLabel are =>
    apply declared_congr
    rw [withoutLabel_tidy isLabel (are.anchored anchored), withoutModifiers_tidy are anchored,
      unlabelled anchored]
  | modified are =>
    apply declared_congr
    rw [unlabelled (are.anchored anchored), withoutModifiers_tidy are anchored,
      unlabelled anchored]
  | respaced respaced =>
    have same : collapse s = collapse t := respaced.collapseFrom_eq false
    rw [declared, declared, tidy, ← same, ← tidy]
  | generic dotted are => exact declared_generic dotted are _

/-- A label with two modifiers, a modifier with a line break, a line break and a tab for a space, and
    type parameters with an arrow and braces in them. -/
theorem declared_decorated_save :
    isMemberStart 's' = true ∧
      (Decorated "save(event: T): void".toList
          "(method) public  async save(event: T): void".toList ∧
        declared "(method) public  async save(event: T): void".toList =
          declared "save(event: T): void".toList) ∧
      (Decorated "save(event: T): void".toList "static\nsave(event: T): void".toList ∧
        declared "static\nsave(event: T): void".toList = declared "save(event: T): void".toList) ∧
      (Decorated "s: A".toList "s:\n\tA".toList ∧
        declared "s:\n\tA".toList = declared "s: A".toList) ∧
      (Decorated "s.save(event: T): void".toList
          "s.save<T extends Map<string, () => void> = \x7b\x7d>(event: T): void".toList ∧
        declared "s.save<T extends Map<string, () => void> = \x7b\x7d>(event: T): void".toList =
          declared "s.save(event: T): void".toList) := by
  have starts : isMemberStart 's' = true := by decide
  have label : IsLabel "(method) ".toList :=
    @IsLabel.mk 'm' "ethod".toList " ".toList (by decide) (by decide) (by decide)
  have words : AreModifiers "public  async ".toList :=
    @AreModifiers.cons "public".toList "  ".toList _ (by decide) (by decide) (by decide)
      (@AreModifiers.cons "async".toList " ".toList _ (by decide) (by decide) (by decide) .nil)
  have word : AreModifiers "static\n".toList :=
    @AreModifiers.cons "static".toList "\n".toList _ (by decide) (by decide) (by decide) .nil
  have spaces : Respaced "s: A".toList "s:\n\tA".toList :=
    .same (by decide) (.same (by decide)
      (@Respaced.run " ".toList "\n\t".toList _ _ (by decide) (by decide) (by decide) (by decide)
        (.same (by decide) .nil)))
  have name : IsDottedName "s.save".toList :=
    @IsDottedName.member "s".toList _ (by decide) (.name (by decide))
  have parameters : IsTypeParameters "<T extends Map<string, () => void> = \x7b\x7d>".toList :=
    ⟨by decide, by decide, by decide, ⟨by decide, by decide⟩⟩
  have labelled : Decorated "save(event: T): void".toList
      "(method) public  async save(event: T): void".toList := .labelled label words
  have modified : Decorated "save(event: T): void".toList
      "static\nsave(event: T): void".toList := .modified word
  have generic : Decorated "s.save(event: T): void".toList
      "s.save<T extends Map<string, () => void> = \x7b\x7d>(event: T): void".toList :=
    .generic name parameters
  exact ⟨starts, ⟨labelled, declared_decorated starts labelled⟩,
    ⟨modified, declared_decorated starts modified⟩,
    ⟨.respaced spaces, declared_decorated starts (.respaced spaces)⟩,
    ⟨generic, declared_decorated starts generic⟩⟩

end Signature

end TemplateTypes
