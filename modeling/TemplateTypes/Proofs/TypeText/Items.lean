import TemplateTypes.Proofs.TypeText.Operands

namespace TemplateTypes.TypeText

open Text

/-- An array type and the type of its items: `[]` behind a single operand, or an array's generic
    instance whose last angle bracket closes its first one. -/
inductive ItemOf : Text → Text → Prop
  | suffix {operand item : Text} : Operand (trim operand) → Peels operand item →
      ItemOf (operand ++ ['[', ']']) item
  | wrapper {name arguments t : Text} : name ∈ arrayNames → arguments ≠ [] →
      InstanceOf name arguments t → ItemOf t (trim arguments)

def otherMembers (pieces : List Text) : List Text :=
  ((pieces.map trim).filter (!·.isEmpty)).filter (!isNullish ·)

/-- The type of the items when the type between whose bars `pieces` stand is an array type, its
    nullish members and the parentheses around the others left aside. -/
def ItemType (t : Text) (pieces : List Text) (item : Text) : Prop :=
  ∃ base, Peels (if otherMembers pieces = [] then t else unionText (otherMembers pieces)) base ∧
    ItemOf base item

theorem arrayItem?_suffix (operand : Text) :
    arrayItem? (operand ++ ['[', ']']) =
      if !operand.isEmpty && isOneLine operand then some operand else none := by
  have ends : endsWith (operand ++ ['[', ']']) ['[', ']'] = true := by
    simp [endsWith]
  have item : (operand ++ ['[', ']']).take ((operand ++ ['[', ']']).length - 2) = operand := by
    simp
  rw [arrayItem?, if_pos ends, item]

theorem generic?_instance {name arguments : Text} (isArray : name ∈ arrayNames) :
    generic? (name ++ '<' :: (arguments ++ ['>'])) =
      if !arguments.isEmpty && isOneLine arguments then some (name, arguments) else none := by
  have facts : ∀ name ∈ arrayNames,
      name.all (fun c => isWord c || c == '$' || c == '.') = true ∧ name ≠ [] := by decide
  obtain ⟨all, visible⟩ := facts name isArray
  have named := List.all_eq_true.mp all
  have ends : endsWith (arguments ++ ['>']) ['>'] = true := by simp [endsWith]
  simp only [generic?, List.takeWhile_append_of_pos named, List.dropWhile_append_of_pos named]
  have angle : isWord '<' = false := by decide
  simp [angle, ends, visible]

variable {t operand arguments name item : Text}

theorem instanceOf_getLast? (shape : t = name ++ '<' :: (arguments ++ ['>'])) :
    t.getLast? = some '>' := by
  have ends : name ++ '<' :: (arguments ++ ['>']) = (name ++ '<' :: arguments) ++ ['>'] := by simp
  rw [shape, ends, List.getLast?_concat]

theorem suffix_getLast? (shape : t = operand ++ ['[', ']']) : t.getLast? = some ']' := by
  have ends : operand ++ ['[', ']'] = (operand ++ ['[']) ++ [']'] := by simp
  rw [shape, ends, List.getLast?_concat]

theorem elementType?_suffix (shape : bare t = operand ++ ['[', ']']) :
    elementType? t =
      if !operand.isEmpty && isOneLine operand then some (unwrap operand) else none := by
  have noInstance : generic? (bare t) = none := by
    cases found : generic? (bare t) with
    | none => rfl
    | some parts =>
      obtain ⟨name, arguments⟩ := parts
      have last := instanceOf_getLast? (generic?_eq_some found)
      rw [suffix_getLast? shape] at last
      exact absurd last (by decide)
  rw [elementType?, noInstance, shape, arrayItem?_suffix]
  by_cases oneLine : (!operand.isEmpty && isOneLine operand) = true
  · rw [if_pos oneLine, if_pos oneLine]
  · rw [if_neg oneLine, if_neg oneLine]

theorem elementType?_wrapper (isArray : name ∈ arrayNames)
    (shape : bare t = name ++ '<' :: (arguments ++ ['>'])) :
    elementType? t =
      if !arguments.isEmpty && isOneLine arguments then some (trim arguments) else none := by
  have noSuffix : arrayItem? (bare t) = none := by
    cases found : arrayItem? (bare t) with
    | none => rfl
    | some operand =>
      have last := suffix_getLast? (arrayItem?_eq_some found)
      rw [instanceOf_getLast? shape] at last
      exact absurd last (by decide)
  rw [elementType?, noSuffix, shape, generic?_instance isArray]
  by_cases oneLine : (!arguments.isEmpty && isOneLine arguments) = true
  · rw [if_pos oneLine, if_pos oneLine]
    exact if_pos (by simpa using isArray)
  · rw [if_neg oneLine, if_neg oneLine]

/-- The two shapes of a type that the reader takes for an array's. -/
inductive HasArrayShape (base : Text) : Prop
  | suffix (operand : Text) : base = operand ++ ['[', ']'] → HasArrayShape base
  | wrapper (name arguments : Text) : name ∈ arrayNames →
      base = name ++ '<' :: (arguments ++ ['>']) → HasArrayShape base

theorem elementType?_of_other (other : ¬ HasArrayShape (bare t)) : elementType? t = none := by
  unfold elementType?
  split
  · rename_i operand found
    exact absurd (.suffix operand (arrayItem?_eq_some found)) other
  · split
    · rename_i name arguments found
      rw [if_neg]
      intro isArray
      exact other (.wrapper name arguments (by simpa using isArray) (generic?_eq_some found))
    · rfl

theorem ItemOf.hasArrayShape {base : Text} (is : ItemOf base item) : HasArrayShape base := by
  cases is with
  | suffix _ _ => exact .suffix _ rfl
  | wrapper isArray _ instanceOf => exact .wrapper _ _ isArray instanceOf.2

theorem instance_unique {other others : Text} (isArray : name ∈ arrayNames)
    (isOther : other ∈ arrayNames)
    (same : name ++ '<' :: (arguments ++ ['>']) = other ++ '<' :: (others ++ ['>'])) :
    name = other ∧ arguments = others := by
  have facts : ∀ name ∈ arrayNames, name.all (· != '<') = true := by decide
  have cut : ∀ {name : Text}, name ∈ arrayNames → ∀ u : Text,
      (name ++ '<' :: u).takeWhile (· != '<') = name := by
    intro name isArray u
    rw [List.takeWhile_append_of_pos (List.all_eq_true.mp (facts name isArray))]
    simp
  have names : name = other := by rw [← cut isArray (arguments ++ ['>']), same, cut isOther]
  subst names
  exact ⟨rfl, by simpa using same⟩

theorem itemOf_suffix_iff :
    ItemOf (operand ++ ['[', ']']) item ↔ Operand (trim operand) ∧ Peels operand item := by
  constructor
  · intro is
    generalize whole : operand ++ ['[', ']'] = base at is
    cases is with
    | @suffix other item isOperand peels =>
      obtain rfl : operand = other := by simpa using whole
      exact ⟨isOperand, peels⟩
    | wrapper _ _ instanceOf =>
      have last := instanceOf_getLast? instanceOf.2
      rw [suffix_getLast? whole.symm] at last
      exact absurd last (by decide)
  · exact fun ⟨isOperand, peels⟩ => .suffix isOperand peels

theorem itemOf_wrapper_iff (isArray : name ∈ arrayNames) :
    ItemOf (name ++ '<' :: (arguments ++ ['>'])) item ↔
      arguments ≠ [] ∧ Balanced arguments ∧ item = trim arguments := by
  constructor
  · intro is
    generalize whole : name ++ '<' :: (arguments ++ ['>']) = base at is
    cases is with
    | suffix _ _ =>
      have last := instanceOf_getLast? whole.symm
      rw [suffix_getLast? rfl] at last
      exact absurd last (by decide)
    | @wrapper other others base isOther some instanceOf =>
      obtain ⟨rfl, rfl⟩ := instance_unique isArray isOther (whole.trans instanceOf.2)
      exact ⟨some, instanceOf.1, rfl⟩
  · rintro ⟨some, balanced, rfl⟩
    exact .wrapper isArray some ⟨balanced, rfl⟩

theorem ItemOf.nested {base : Text} (is : ItemOf base item) : Nested isOperandSign base := by
  cases is with
  | @suffix operand item isOperand _ =>
    have blanks : ∀ c, isBlank c = true → isOperandSign c = true := by
      intro c blank
      simp [isOperandSign, blank]
    obtain ⟨a, b, before, behind, parts⟩ := exists_blanks_trim operand
    have empty : Nested isOperandSign ('[' :: ([] ++ [']'])) := nested_enclosed (by decide) .nil
    rw [parts]
    exact ((nested_blanks before blanks).append
      (isOperand.nested.append (nested_blanks behind blanks))).append empty
  | @wrapper name arguments base isArray _ instanceOf =>
    have facts : ∀ name ∈ arrayNames, name.all (fun c => isPlain c && isOperandSign c) = true := by
      decide
    rw [instanceOf.2]
    exact (nested_of_plain (facts name isArray)).append
      (nested_enclosed (by decide) instanceOf.1)

theorem single_of_operandSigns {t : Text} (nested : Nested isOperandSign t) : Single t := by
  apply single_of_nested
  apply nested.mono
  intro c sign
  by_contra bar
  obtain rfl : c = '|' := by simpa using bar
  exact absurd sign (by decide)

theorem HasArrayShape.not_isEnclosed {base : Text} (shape : HasArrayShape base) :
    isEnclosed base = false := by
  have last : base.getLast? = some ']' ∨ base.getLast? = some '>' := by
    cases shape with
    | suffix operand shape => exact .inl (suffix_getLast? shape)
    | wrapper name arguments _ shape => exact .inr (instanceOf_getLast? shape)
  rcases last with last | last <;> simp [isEnclosed, endsWith_single, last]

theorem not_itemOf_function {parameters gap rest : Text} (balanced : Balanced parameters)
    (blank : allBlank gap = true) :
    ¬ ItemOf ('(' :: (parameters ++ ')' :: (gap ++ '=' :: '>' :: rest))) item := by
  intro is
  have parts : '(' :: (parameters ++ ')' :: (gap ++ '=' :: '>' :: rest)) =
      ('(' :: (parameters ++ [')']) ++ gap) ++ '=' :: '>' :: rest := by simp
  have front : Balanced ('(' :: (parameters ++ [')']) ++ gap) :=
    (nested_enclosed (by decide) balanced).append (nested_blanks blank fun _ _ => rfl)
  have misses := is.nested.misses_equals (by decide) (by decide) (s := .start) rfl
  rw [parts, Scanner.misses_append] at misses
  have unseen := misses.2.1
  rw [front.seesTop_equals] at unseen
  cases unseen

theorem splitTop_of_bars {pieces : List Text} (bars : Bars t pieces) :
    splitTop '|' t = (pieces.map trim).filter (!·.isEmpty) := by
  rw [splitTop, bars.topPiecesFrom_eq (Scanner.fresh_start t)]

theorem not_itemType_of_union {pieces : List Text} (bars : Bars t pieces)
    (several : 2 ≤ (otherMembers pieces).length) : ¬ ItemType t pieces item := by
  rintro ⟨base, peels, is⟩
  have are : AreParts '|' (otherMembers pieces) := by
    rw [otherMembers, ← splitTop_of_bars bars]
    exact (areParts_splitTop isSeparator_bar t).sublist List.filter_sublist
  have union : ¬ Single (unionText (otherMembers pieces)) := by
    rw [Single, splitTop_unionText are]
    omega
  rw [if_neg (by rintro none; rw [none] at several; exact absurd several (by decide))] at peels
  cases peels with
  | done _ =>
    rw [(trimmed_unionText are).trim_eq] at is
    exact union (single_of_operandSigns is.nested)
  | pair pair _ =>
    rw [(trimmed_unionText are).trim_eq] at pair
    apply union
    rw [pair.2]
    exact single_of_nested (nested_enclosed (by decide) pair.1)

theorem stripNullish_of_bars {pieces : List Text} (bars : Bars t pieces) :
    stripNullish t =
      if otherMembers pieces = [] then t else unionText (otherMembers pieces) := by
  rw [stripNullish, splitTop_of_bars bars, ← otherMembers]
  cases otherMembers pieces <;> rfl

theorem itemType_iff {pieces : List Text} (bars : Bars t pieces) :
    ItemType t pieces item ↔ ItemOf (bare t) item := by
  have room := (isInfix_trim (stripNullish t)).length_le
  rw [ItemType, ← stripNullish_of_bars bars]
  by_cases pairs : PairsMatch (stripNullish t).length (trim (stripNullish t))
  · have peels : Peels (stripNullish t) (bare t) := (peels_unwrap_iff _).mpr pairs
    constructor
    · rintro ⟨base, others, is⟩
      exact others.unique peels ▸ is
    · exact fun is => ⟨bare t, peels, is⟩
  · obtain ⟨⟨base, peels, enclosed⟩, broken⟩ := broken_unwrapFrom (trim_trim _) pairs
    constructor
    · rintro ⟨other, others, is⟩
      obtain rfl := others.unique (peels_trim.mp peels)
      exact absurd enclosed (by rw [is.hasArrayShape.not_isEnclosed]; decide)
    · exact fun is => absurd (is.nested.mono fun _ _ => rfl) broken

/-- The ends of a type belong together as the reader takes them to: what stands before `[]` is a
    single operand and no parentheses but those that enclose it are taken off it, and the angle
    brackets of an array's instance match, each time unless there are several lines, of which the
    reader makes nothing. -/
structure ReadsItems (base : Text) : Prop where
  suffix : ∀ operand, operand ≠ [] → base = operand ++ ['[', ']'] →
    (isOneLine operand = true ↔ Operand (trim operand))
  parens : ∀ operand, base = operand ++ ['[', ']'] → Operand (trim operand) →
    PairsMatch operand.length (trim operand)
  wrapper : ∀ name ∈ arrayNames, ∀ arguments, arguments ≠ [] →
    base = name ++ '<' :: (arguments ++ ['>']) → (isOneLine arguments = true ↔ Balanced arguments)

/-- A reader that answers `x` on a condition agrees with a law that gives one answer, if any, when
    the two conditions are the same and `x` is that answer. -/
theorem answers_iff {line law : Prop} [Decidable line] {x : Text} {P : Text → Prop}
    (total : ∃ y, P y) (unique : ∀ {y z}, P y → P z → y = z) :
    (∀ y, (if line then some x else none) = some y ↔ law ∧ P y) ↔
      (line ↔ law) ∧ (law → P x) := by
  obtain ⟨y, isAnswer⟩ := total
  by_cases holds : line
  · simp only [holds, ↓reduceIte, Option.some.injEq, true_iff]
    constructor
    · intro agree
      have own := (agree x).mp rfl
      exact ⟨own.1, fun _ => own.2⟩
    · rintro ⟨isLaw, own⟩ z
      constructor
      · rintro rfl
        exact ⟨isLaw, own isLaw⟩
      · exact fun ⟨_, other⟩ => unique (own isLaw) other
  · simp only [holds, ↓reduceIte, false_iff]
    constructor
    · intro agree
      have noLaw : ¬ law := fun isLaw => by cases (agree y).mpr ⟨isLaw, isAnswer⟩
      exact ⟨noLaw, fun isLaw => absurd isLaw noLaw⟩
    · rintro ⟨noLaw, _⟩ z
      exact iff_of_false (by simp) fun both => noLaw both.1

theorem agrees_suffix (shape : bare t = operand ++ ['[', ']']) :
    (∀ item, elementType? t = some item ↔ ItemOf (bare t) item) ↔
      (operand ≠ [] → (isOneLine operand = true ↔ Operand (trim operand))) ∧
        (Operand (trim operand) → PairsMatch operand.length (trim operand)) := by
  have visible : Operand (trim operand) → operand ≠ [] := by
    rintro isOperand rfl
    exact isOperand.nonempty rfl
  rw [elementType?_suffix shape, shape]
  simp only [itemOf_suffix_iff]
  rw [answers_iff (exists_peels operand) Peels.unique, peels_unwrap_iff]
  simp only [Bool.and_eq_true, Bool.not_eq_true', List.isEmpty_eq_false_iff]
  refine and_congr_left fun _ => ⟨fun same filled => ?_, fun same => ?_⟩
  · rw [← same]
    exact (and_iff_right filled).symm
  · constructor
    · exact fun ⟨filled, oneLine⟩ => (same filled).mp oneLine
    · exact fun isOperand => ⟨visible isOperand, (same (visible isOperand)).mpr isOperand⟩

theorem agrees_wrapper (isArray : name ∈ arrayNames)
    (shape : bare t = name ++ '<' :: (arguments ++ ['>'])) :
    (∀ item, elementType? t = some item ↔ ItemOf (bare t) item) ↔
      (arguments ≠ [] → (isOneLine arguments = true ↔ Balanced arguments)) := by
  rw [elementType?_wrapper isArray shape, shape]
  simp only [itemOf_wrapper_iff isArray, ← and_assoc]
  refine (answers_iff (P := (· = trim arguments)) ⟨_, rfl⟩
    fun left right => left.trans right.symm).trans ?_
  simp only [Bool.and_eq_true, Bool.not_eq_true', List.isEmpty_eq_false_iff, implies_true, and_true]
  exact and_congr_right_iff

/-- The reader finds the items' type of an array type, and of no other type one, exactly when the
    ends of the bare type belong together. -/
theorem elementType?_iff {pieces : List Text} (bars : Bars t pieces) :
    (∀ item, elementType? t = some item ↔ ItemType t pieces item) ↔ ReadsItems (bare t) := by
  simp only [itemType_iff bars]
  by_cases shape : HasArrayShape (bare t)
  · cases shape with
    | suffix operand shape =>
      rw [agrees_suffix shape]
      have only : ∀ {other}, bare t = other ++ ['[', ']'] → other = operand := by
        intro other same
        exact List.append_cancel_right (same.symm.trans shape)
      constructor
      · rintro ⟨operands, pairs⟩
        refine ⟨fun other some same => ?_, fun other same => ?_,
          fun name isArray others _ same => ?_⟩
        · obtain rfl := only same
          exact operands some
        · obtain rfl := only same
          exact pairs
        · have last := instanceOf_getLast? same
          rw [suffix_getLast? shape] at last
          exact absurd last (by decide)
      · exact fun reads => ⟨fun some => reads.suffix operand some shape, reads.parens operand shape⟩
    | wrapper name arguments isArray shape =>
      rw [agrees_wrapper isArray shape]
      have noSuffix : ∀ {other}, bare t ≠ other ++ ['[', ']'] := by
        intro other same
        have last := instanceOf_getLast? shape
        rw [suffix_getLast? same] at last
        exact absurd last (by decide)
      constructor
      · intro wrapped
        refine ⟨fun _ _ same => absurd same noSuffix, fun _ same => absurd same noSuffix, ?_⟩
        intro other isOther others some same
        obtain ⟨rfl, rfl⟩ := instance_unique isArray isOther (shape.symm.trans same)
        exact wrapped some
      · exact fun reads some => reads.wrapper name isArray arguments some shape
  · have nothing := elementType?_of_other shape
    refine iff_of_true (fun item => ?_) ⟨fun operand _ same => ?_, fun operand same => ?_,
      fun name isArray arguments _ same => ?_⟩
    · exact iff_of_false (by simp [nothing]) fun is => shape is.hasArrayShape
    · exact absurd (.suffix operand same) shape
    · exact absurd (.suffix operand same) shape
    · exact absurd (.wrapper name arguments isArray same) shape

theorem elementType?_iff_users :
    Bars "(User | null)[] | undefined".toList ["(User | null)[] ".toList, " undefined".toList] ∧
      ∀ item, elementType? "(User | null)[] | undefined".toList = some item ↔
        ItemType "(User | null)[] | undefined".toList
          ["(User | null)[] ".toList, " undefined".toList] item := by
  have inner : Balanced "User | null".toList := nested_of_plain (by decide)
  have parens : ('(', ')') ∈ brackets := by decide
  have squares : ('[', ']') ∈ brackets := by decide
  have bars : Bars "(User | null)[] | undefined".toList
      ["(User | null)[] ".toList, " undefined".toList] := by
    have first : Nested (· != '|') "(User | null)[] ".toList :=
      .group parens inner (.group squares .nil (nested_of_plain (t := [' ']) (by decide)))
    have second : Nested (· != '|') " undefined".toList := nested_of_plain (by decide)
    exact .bar first (by decide) (.last second)
  have shape : bare "(User | null)[] | undefined".toList =
      "(User | null)".toList ++ ['[', ']'] := by
    decide
  refine ⟨bars, (elementType?_iff bars).mpr ⟨?_, ?_, ?_⟩⟩
  · intro operand _ same
    obtain rfl := List.append_cancel_right (same.symm.trans shape)
    exact iff_of_true (by decide) (.enclosed (by decide) inner)
  · intro operand same _
    obtain rfl := List.append_cancel_right (same.symm.trans shape)
    exact fun _ => ⟨inner, pairsMatch_of_open (by decide) _⟩
  · intro name _ arguments _ same
    have last := instanceOf_getLast? same
    rw [suffix_getLast? shape] at last
    exact absurd last (by decide)

/-- An item type is found for a union and for a function, and none for an array of an object type
    that is written on several lines. -/
theorem elementType?_misreads :
    (Bars "string | number[]".toList ["string ".toList, " number[]".toList] ∧
      elementType? "string | number[]".toList = some "string | number".toList ∧
      ∀ item, ¬ ItemType "string | number[]".toList ["string ".toList, " number[]".toList] item) ∧
    (Bars "() => string[]".toList ["() => string[]".toList] ∧
      elementType? "() => string[]".toList = some "() => string".toList ∧
      ∀ item, ¬ ItemType "() => string[]".toList ["() => string[]".toList] item) ∧
    (Bars "Array<\x7b\n  id: string;\n\x7d>".toList ["Array<\x7b\n  id: string;\n\x7d>".toList] ∧
      elementType? "Array<\x7b\n  id: string;\n\x7d>".toList = none ∧
      ItemType "Array<\x7b\n  id: string;\n\x7d>".toList ["Array<\x7b\n  id: string;\n\x7d>".toList]
        "\x7b\n  id: string;\n\x7d".toList) := by
  have parens : ('(', ')') ∈ brackets := by decide
  have angles : ('<', '>') ∈ brackets := by decide
  have curlies : ('\x7b', '\x7d') ∈ brackets := by decide
  have squares : ('[', ']') ∈ brackets := by decide
  refine ⟨?_, ?_, ?_⟩
  · have bars : Bars "string | number[]".toList ["string ".toList, " number[]".toList] := by
      have first : Nested (· != '|') "string ".toList := nested_of_plain (by decide)
      have name : Nested (· != '|') " number".toList := nested_of_plain (by decide)
      exact .bar first (by decide) (.last (name.append (.group squares .nil .nil)))
    exact ⟨bars, by decide, fun item => not_itemType_of_union bars (by decide)⟩
  · have bars : Bars "() => string[]".toList ["() => string[]".toList] := by
      have result : Nested (· != '|') " string".toList := nested_of_plain (by decide)
      have arrow : Nested (· != '|') "=> string[]".toList :=
        .arrow (by decide) (result.append (.group squares .nil .nil))
      exact .last (.group parens .nil (.plain (c := ' ') (by decide) (by decide) arrow))
    refine ⟨bars, by decide, fun item is => ?_⟩
    rw [itemType_iff bars] at is
    have function : bare "() => string[]".toList =
        '(' :: ([] ++ ')' :: ([' '] ++ '=' :: '>' :: " string[]".toList)) := by decide
    rw [function] at is
    exact not_itemOf_function .nil (by decide) is
  · have object : Balanced "\x7b\n  id: string;\n\x7d".toList :=
      .group curlies (nested_of_plain (t := "\n  id: string;\n".toList) (by decide)) .nil
    have bars : Bars "Array<\x7b\n  id: string;\n\x7d>".toList
        ["Array<\x7b\n  id: string;\n\x7d>".toList] := by
      have name : Nested (· != '|') "Array".toList := nested_of_plain (by decide)
      exact .last (name.append (nested_enclosed angles object))
    refine ⟨bars, by decide, ?_⟩
    rw [itemType_iff bars]
    have isArray : "Array".toList ∈ arrayNames := by decide
    exact .wrapper isArray (by decide) ⟨object, by decide⟩

end TemplateTypes.TypeText
