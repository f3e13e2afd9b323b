import TemplateTypes.Proofs.TypeText.Parts
import TemplateTypes.Proofs.TypeText.Structure

namespace TemplateTypes.TypeText

open Text

def operatorWords : List Text :=
  ["keyof", "readonly", "unique", "infer", "typeof"].map String.toList

structure IsTypeWord (t : Text) : Prop where
  nonempty : t ≠ []
  parts : ∀ c ∈ t, isPlain c = true ∧ isOperandPart c = true
  notOperator : t ∉ operatorWords

/-- A single type that no operator stands in front of or within: a name, a literal, whatever is
    enclosed in brackets, and such a type with type arguments or subscripts. -/
inductive Operand : Text → Prop
  | word {t : Text} : IsTypeWord t → Operand t
  | literal {quote : Char} {inner : Text} : isQuote quote = true → Quoted quote inner →
      Operand (quote :: (inner ++ [quote]))
  | enclosed {opener closer : Char} {inner : Text} :
      (opener, closer) ∈ [('(', ')'), ('\x7b', '\x7d'), ('[', ']')] → Balanced inner →
      Operand (opener :: (inner ++ [closer]))
  | imported {module name : Text} : Balanced module → name = [] ∨ IsTypeWord name →
      Operand ("import".toList ++ '(' :: (module ++ ')' :: name))
  | withArguments {t arguments : Text} : Operand t → Balanced arguments →
      Operand (t ++ '<' :: (arguments ++ ['>']))
  | subscript {t gap key : Text} : Operand t → allBlank gap = true → Balanced key →
      Operand (t ++ (gap ++ '[' :: (key ++ [']'])))
  | queried {gap t : Text} : allBlank gap = true → gap ≠ [] → Operand t →
      Operand ("typeof".toList ++ (gap ++ t))

def isOperandSign (c : Char) : Bool := isOperandPart c || isBlank c

theorem nested_enclosed {top : Char → Bool} {opener closer : Char} {inner : Text}
    (pair : (opener, closer) ∈ brackets) (balanced : Balanced inner) :
    Nested top (opener :: (inner ++ [closer])) :=
  .group pair balanced .nil

theorem nested_blanks {top : Char → Bool} {t : Text} (blank : allBlank t = true)
    (blanks : ∀ c, isBlank c = true → top c = true) : Nested top t := by
  apply nested_of_plain
  rw [List.all_eq_true]
  intro c member
  have here : isBlank c = true := List.all_eq_true.mp blank c member
  rw [isPlain_of_isBlank here, blanks c here]
  rfl

theorem IsTypeWord.nested {t : Text} (word : IsTypeWord t) : Nested isOperandSign t := by
  apply nested_of_plain
  rw [List.all_eq_true]
  intro c member
  obtain ⟨plain, part⟩ := word.parts c member
  simp [plain, isOperandSign, part]

theorem Operand.nested {t : Text} (operand : Operand t) : Nested isOperandSign t := by
  have blanks : ∀ c, isBlank c = true → isOperandSign c = true := by
    intro c blank
    simp [isOperandSign, blank]
  induction operand with
  | word word => exact word.nested
  | literal quote quoted => exact .literal quote quoted .nil
  | @enclosed opener closer inner pair balanced =>
    have all : ∀ pair ∈ [('(', ')'), ('\x7b', '\x7d'), ('[', ']')], pair ∈ brackets := by decide
    exact nested_enclosed (all _ pair) balanced
  | @imported module name balanced named =>
    have rest : Nested isOperandSign name := by
      rcases named with rfl | word
      · exact .nil
      · exact word.nested
    have front : Nested isOperandSign "import".toList := nested_of_plain (by decide)
    exact front.append (.group (by decide) balanced rest)
  | withArguments _ balanced ih => exact ih.append (nested_enclosed (by decide) balanced)
  | subscript _ gap balanced ih =>
    exact ih.append ((nested_blanks gap blanks).append (nested_enclosed (by decide) balanced))
  | queried gap _ _ ih =>
    have front : Nested isOperandSign "typeof".toList := nested_of_plain (by decide)
    exact front.append ((nested_blanks gap blanks).append ih)

theorem Operand.nonempty {t : Text} (operand : Operand t) : t ≠ [] := by
  induction operand with
  | word word => exact word.nonempty
  | _ => simp

def InParens (inner t : Text) : Prop := Balanced inner ∧ t = '(' :: (inner ++ [')'])

/-- Blanks and enclosing parentheses are taken off a type until no pair encloses it. -/
inductive Peels : Text → Text → Prop
  | done {t : Text} : (∀ inner, ¬ InParens inner (trim t)) → Peels t (trim t)
  | pair {t inner base : Text} : InParens inner (trim t) → Peels inner base → Peels t base

theorem InParens.unique {inner other t : Text} (left : InParens inner t)
    (right : InParens other t) : inner = other := by
  have same := left.2.symm.trans right.2
  simpa using same

theorem Peels.unique {t base other : Text} (left : Peels t base) (right : Peels t other) :
    base = other := by
  induction left with
  | done noPair =>
    cases right with
    | done _ => rfl
    | pair pair _ => exact absurd pair (noPair _)
  | pair pair _ ih =>
    cases right with
    | done noPair => exact absurd pair (noPair _)
    | pair again rest =>
      obtain rfl := pair.unique again
      exact ih rest

theorem peels_trim {t base : Text} : Peels (trim t) base ↔ Peels t base := by
  constructor
  · intro peels
    cases peels with
    | done noPair =>
      rw [trim_trim] at noPair ⊢
      exact .done noPair
    | pair pair rest =>
      rw [trim_trim] at pair
      exact .pair pair rest
  · intro peels
    cases peels with
    | done noPair =>
      have again := Peels.done (t := trim t) (by rwa [trim_trim])
      rwa [trim_trim] at again
    | pair pair rest => exact .pair (by rwa [trim_trim]) rest

def isEnclosed (t : Text) : Bool := startsWith t ['('] && endsWith t [')']

theorem isEnclosed_of_inParens {inner t : Text} (pair : InParens inner t) :
    isEnclosed t = true := by
  obtain ⟨_, rfl⟩ := pair
  simp [isEnclosed, startsWith, endsWith_single, List.getLast?_cons]

theorem length_of_isEnclosed {t : Text} (enclosed : isEnclosed t = true) :
    (trim (t.drop 1).dropLast).length + 2 ≤ t.length := by
  have shape := eq_parens enclosed
  have room := (isInfix_trim (t.drop 1).dropLast).length_le
  have length := congrArg List.length shape
  simp only [List.length_cons, List.length_append, List.length_nil] at length
  omega

theorem unwrapFrom_not_isEnclosed {fuel : Nat} {t : Text} (room : t.length ≤ fuel) :
    isEnclosed (unwrapFrom fuel t) = false := by
  induction fuel generalizing t with
  | zero =>
    obtain rfl := List.length_eq_zero_iff.mp (Nat.le_zero.mp room)
    decide
  | succ fuel ih =>
    rw [unwrapFrom]
    split
    · rename_i enclosed
      have shorter := length_of_isEnclosed enclosed
      exact ih (by omega)
    · rename_i other
      simpa [isEnclosed] using other

theorem peels_self {t : Text} (trimmed : trim t = t) (other : isEnclosed t = false) :
    Peels t t := by
  have whole := Peels.done (t := t) fun inner pair => by
    rw [trimmed] at pair
    rw [isEnclosed_of_inParens pair] at other
    cases other
  rwa [trimmed] at whole

theorem peels_unwrapFrom {fuel : Nat} {t : Text} (room : t.length ≤ fuel) (trimmed : trim t = t)
    (pairs : PairsMatch fuel t) : Peels t (unwrapFrom fuel t) := by
  induction fuel generalizing t with
  | zero =>
    obtain rfl := List.length_eq_zero_iff.mp (Nat.le_zero.mp room)
    exact peels_self rfl (by decide)
  | succ fuel ih =>
    rw [unwrapFrom]
    split
    · rename_i enclosed
      obtain ⟨balanced, rest⟩ := pairs enclosed
      have shorter := length_of_isEnclosed enclosed
      have inner := ih (by omega) (trim_trim _) rest
      exact .pair ⟨balanced, trimmed.trans (eq_parens enclosed)⟩ (peels_trim.mp inner)
    · rename_i other
      exact peels_self trimmed (by simpa [isEnclosed] using other)

theorem balanced_of_trim {t : Text} (balanced : Balanced (trim t)) : Balanced t := by
  obtain ⟨a, b, before, behind, parts⟩ := exists_blanks_trim t
  rw [parts]
  exact (nested_blanks before fun _ _ => rfl).append
    (balanced.append (nested_blanks behind fun _ _ => rfl))

theorem not_balanced_unwrapFrom {fuel : Nat} {t : Text} (broken : ¬ Balanced t) :
    ¬ Balanced (unwrapFrom fuel (trim t)) := by
  induction fuel generalizing t with
  | zero => exact fun balanced => broken (balanced_of_trim balanced)
  | succ fuel ih =>
    rw [unwrapFrom]
    split
    · rename_i enclosed
      apply ih
      intro balanced
      apply broken
      apply balanced_of_trim
      rw [eq_parens enclosed]
      exact nested_enclosed (by decide) balanced
    · exact fun balanced => broken (balanced_of_trim balanced)

/-- Where parentheses are taken off that do not match, the type was bare before, and what is left
    of it is broken. -/
theorem broken_unwrapFrom {fuel : Nat} {t : Text} (trimmed : trim t = t)
    (broken : ¬ PairsMatch fuel t) :
    (∃ base, Peels t base ∧ isEnclosed base = true) ∧ ¬ Balanced (unwrapFrom fuel t) := by
  induction fuel generalizing t with
  | zero => exact absurd trivial broken
  | succ fuel ih =>
    have enclosed : isEnclosed t = true := by
      by_contra other
      exact broken fun enclosed => absurd enclosed other
    have shape := eq_parens enclosed
    have taken : unwrapFrom (fuel + 1) t = unwrapFrom fuel (trim (t.drop 1).dropLast) :=
      if_pos enclosed
    rw [taken]
    by_cases balanced : Balanced (t.drop 1).dropLast
    · have inner : ¬ PairsMatch fuel (trim (t.drop 1).dropLast) :=
        fun rest => broken fun _ => ⟨balanced, rest⟩
      obtain ⟨⟨base, peels, around⟩, rest⟩ := ih (trim_trim _) inner
      exact ⟨⟨base, .pair ⟨balanced, trimmed.trans shape⟩ (peels_trim.mp peels), around⟩, rest⟩
    · refine ⟨⟨t, ?_, enclosed⟩, not_balanced_unwrapFrom balanced⟩
      have whole := Peels.done (t := t) fun inner pair => by
        rw [trimmed] at pair
        have same : (t.drop 1).dropLast = inner := by
          have parts := shape.symm.trans pair.2
          simpa using parts
        exact balanced (same ▸ pair.1)
      rwa [trimmed] at whole

theorem exists_peels (t : Text) : ∃ base, Peels t base := by
  by_cases pairs : PairsMatch t.length (trim t)
  · have room := (isInfix_trim t).length_le
    exact ⟨_, peels_trim.mp (peels_unwrapFrom room (trim_trim t) pairs)⟩
  · obtain ⟨⟨base, peels, _⟩, _⟩ := broken_unwrapFrom (trim_trim t) pairs
    exact ⟨base, peels_trim.mp peels⟩

theorem peels_unwrap_iff (t : Text) :
    Peels t (unwrap t) ↔ PairsMatch t.length (trim t) := by
  have room := (isInfix_trim t).length_le
  constructor
  · intro peels
    by_contra broken
    obtain ⟨⟨base, others, enclosed⟩, _⟩ := broken_unwrapFrom (trim_trim t) broken
    have same := peels.unique (peels_trim.mp others)
    have stopped := unwrapFrom_not_isEnclosed room
    rw [← same] at enclosed
    exact absurd enclosed (by rw [unwrap, stopped]; decide)
  · exact fun pairs => peels_trim.mp (peels_unwrapFrom room (trim_trim t) pairs)

/-- The pieces stand between the bars of `t` outside brackets and literals. -/
inductive Bars : Text → List Text → Prop
  | last {t : Text} : Nested (· != '|') t → Bars t [t]
  | bar {t rest : Text} {pieces : List Text} : Nested (· != '|') t → rest.head? ≠ some '|' →
      Bars rest pieces → Bars (t ++ '|' :: rest) (t :: pieces)

theorem Bars.topPiecesFrom_eq {t : Text} {pieces : List Text} (bars : Bars t pieces)
    {s : Scanner} (fresh : s.Fresh t) : topPiecesFrom '|' s t = pieces := by
  induction bars generalizing s with
  | last nested =>
    have misses := nested.misses '|' fresh.quote (.inr (by decide))
    exact topPiecesFrom_of_whole (misses.whole none)
  | @bar t rest pieces nested apart _ ih =>
    have misses := nested.misses '|' fresh.quote (.inr (by decide))
    have behind := nested.run fresh.quote
    have noBar : t.getLast?.or s.last ≠ some '|' := by
      cases last : t.getLast? with
      | none =>
        obtain rfl := List.getLast?_eq_none_iff.mp last
        exact fun bar => fresh.apart bar rfl
      | some c =>
        rintro bar
        obtain rfl : c = '|' := Option.some.inj bar
        exact absurd ((nested.of_getLast? last).2 (by decide)) (by decide)
    have cuts : (s.run t).cuts '|' '|' rest = true := by
      rw [Scanner.cuts_iff isSeparator_bar, behind]
      exact ⟨⟨fresh.depth, rfl⟩, fun _ => ⟨noBar, apart⟩⟩
    rw [topPiecesFrom_cut (misses.whole _) cuts, ih (Scanner.fresh_of_cuts isSeparator_bar cuts)]

end TemplateTypes.TypeText
