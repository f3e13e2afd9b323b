import TemplateTypes.Proofs.Text.Search
import TemplateTypes.Proofs.TypeText.Scanning
import TemplateTypes.TypeText.Structure

namespace TemplateTypes.TypeText

open Text

/-- Taking enclosing parentheses away leads from one type to the other. -/
inductive Encloses : Text → Text → Prop
  | refl {t : Text} : Encloses t t
  | blanks {t base : Text} : Encloses (trim t) base → Encloses t base
  | parens {inner base : Text} : Balanced inner → Encloses (trim inner) base →
      Encloses ('(' :: (inner ++ [')'])) base

/-- Taking nullish members and enclosing parentheses away leads from one type to the other. -/
inductive Sheds : Text → Text → Prop
  | enclosed {t base : Text} : Encloses t base → Sheds t base
  | nullish {t base : Text} {members : List Text} :
      (splitTop '|' t).filter (!isNullish ·) = members → members ≠ [] →
      Sheds (unionText members) base → Sheds t base
  | parens {t middle base : Text} : Encloses t middle → Sheds middle base → Sheds t base

def Single (t : Text) : Prop := (splitTop '|' t).length ≤ 1

instance (t : Text) : Decidable (Single t) := inferInstanceAs (Decidable (_ ≤ _))

def InstanceOf (name arguments t : Text) : Prop :=
  Balanced arguments ∧ t = name ++ '<' :: (arguments ++ ['>'])

def Named (name t : Text) : Prop := t = name ∨ ∃ arguments, InstanceOf name arguments t

/-- What can stand in front of `[]`: names, literals and brackets, but no operator between types
    and no blank. -/
def isOperandPart (c : Char) : Bool :=
  !isBlank c && c != '|' && c != '&' && c != '?' && c != ':' && c != ',' && c != ';' && c != '=' &&
    c != '>'

inductive ArrayOf (item : Text) : Text → Prop
  | suffix {operand : Text} : Nested isOperandPart operand → Encloses operand item →
      ArrayOf item (operand ++ ['[', ']'])
  | wrapper {name arguments t : Text} : name ∈ arrayNames → InstanceOf name arguments t →
      item = trim arguments → ArrayOf item t

inductive SignalOf (value : Text) : Text → Prop
  | wrapper {name arguments t : Text} {others : List Text} : name ∈ signalNames →
      InstanceOf name arguments t → splitTop ',' arguments = value :: others → SignalOf value t

/-- A union sign behind the arrow belongs to the result, so nullish members are taken away only
    around a function in parentheses. -/
inductive FunctionTo (result : Text) : Text → Prop
  | arrow {parameters gap rest : Text} : Balanced parameters → allBlank gap = true →
      result = trim rest →
      FunctionTo result ('(' :: (parameters ++ ')' :: (gap ++ '=' :: '>' :: rest)))
  | blanks {t : Text} : FunctionTo result (trim t) → FunctionTo result t
  | parens {t inner : Text} : Sheds t ('(' :: (inner ++ [')'])) → Balanced inner →
      FunctionTo result (trim inner) → FunctionTo result t

theorem Sheds.trans {t middle base : Text} (first : Sheds t middle) (second : Sheds middle base) :
    Sheds t base := by
  induction first with
  | enclosed encloses => exact .parens encloses second
  | nullish kept some _ ih => exact .nullish kept some (ih second)
  | parens encloses _ ih => exact .parens encloses (ih second)

theorem Encloses.eq {t base : Text} (encloses : Encloses t base) (trimmed : trim t = t)
    (front : t.head? ≠ some '(') : base = t := by
  induction encloses with
  | refl => rfl
  | blanks _ ih =>
    rw [trimmed] at ih
    exact ih trimmed front
  | parens _ _ _ => exact absurd rfl front

theorem Sheds.eq {t base : Text} (sheds : Sheds t base) (trimmed : trim t = t)
    (front : t.head? ≠ some '(')
    (kept : unionText ((splitTop '|' t).filter (!isNullish ·)) = t) : base = t := by
  induction sheds with
  | enclosed encloses => exact encloses.eq trimmed front
  | nullish members _ _ ih =>
    subst members
    rw [kept] at ih
    exact ih trimmed front kept
  | parens encloses _ ih =>
    obtain rfl := encloses.eq trimmed front
    exact ih trimmed front kept

/-- Every pair of parentheses that is taken off the text encloses matching brackets. -/
def PairsMatch : (fuel : Nat) → Text → Prop
  | 0, _ => True
  | fuel + 1, t =>
    (startsWith t ['('] && endsWith t [')']) = true →
      Balanced (t.drop 1).dropLast ∧ PairsMatch fuel (trim (t.drop 1).dropLast)

theorem eq_parens {t : Text} (enclosed : (startsWith t ['('] && endsWith t [')']) = true) :
    t = '(' :: ((t.drop 1).dropLast ++ [')']) := by
  rw [Bool.and_eq_true, endsWith_single, beq_iff_eq, startsWith, List.isPrefixOf_iff_prefix]
    at enclosed
  obtain ⟨⟨rest, rfl⟩, last⟩ := enclosed
  rcases List.eq_nil_or_concat' rest with rfl | ⟨inner, c, rfl⟩
  · exact absurd last (by decide)
  · obtain rfl : c = ')' := by simpa [List.getLast?_cons] using last
    simp

theorem encloses_unwrapFrom {fuel : Nat} {t : Text} (pairs : PairsMatch fuel t) :
    Encloses t (unwrapFrom fuel t) := by
  induction fuel generalizing t with
  | zero => exact .refl
  | succ fuel ih =>
    rw [unwrapFrom]
    split
    · rename_i enclosed
      obtain ⟨balanced, rest⟩ := pairs enclosed
      have inner := Encloses.parens balanced (ih rest)
      rwa [← eq_parens enclosed] at inner
    · exact .refl

theorem sheds_stripNullish (t : Text) : Sheds t (stripNullish t) := by
  unfold stripNullish
  split
  · exact .enclosed .refl
  · rename_i members some
    exact .nullish rfl some (.enclosed .refl)

theorem sheds_bare {t : Text}
    (pairs : PairsMatch (stripNullish t).length (trim (stripNullish t))) : Sheds t (bare t) :=
  (sheds_stripNullish t).trans (.enclosed (.blanks (encloses_unwrapFrom pairs)))

theorem generic?_eq_some {t name arguments : Text} (found : generic? t = some (name, arguments)) :
    t = name ++ '<' :: (arguments ++ ['>']) := by
  unfold generic? at found
  dsimp only at found
  split at found
  · rename_i rest opens
    obtain ⟨shape, parts⟩ := Option.ite_none_right_eq_some.mp found
    cases parts
    simp only [Bool.and_eq_true, endsWith_single, beq_iff_eq] at shape
    obtain ⟨⟨⟨_, closes⟩, _⟩, _⟩ := shape
    have whole := List.takeWhile_append_dropWhile (l := t)
      (p := fun c => isWord c || c == '$' || c == '.')
    rw [opens] at whole
    have ends : rest.dropLast ++ ['>'] = rest := by
      obtain ⟨inner, rfl⟩ := List.getLast?_eq_some_iff.mp closes
      simp
    rw [ends, whole]
  · cases found

theorem arrayItem?_eq_some {t item : Text} (found : arrayItem? t = some item) :
    t = item ++ ['[', ']'] := by
  unfold arrayItem? at found
  obtain ⟨ends, found⟩ := Option.ite_none_right_eq_some.mp found
  obtain ⟨_, taken⟩ := Option.ite_none_right_eq_some.mp found
  obtain ⟨front, back⟩ := List.isPrefixOf_iff_prefix.mp ends
  have whole : t = front.reverse ++ ['[', ']'] := by
    rw [← List.reverse_reverse t, ← back]
    simp
  rw [← Option.some.inj taken, whole]
  simp

theorem findLast?_eq_none_iff {needle t : Text} (some : needle ≠ []) :
    findLast? needle t = none ↔ ¬ needle <:+: t := by
  induction t with
  | nil => simp [findLast?, some]
  | cons c t ih =>
    rw [findLast?, List.infix_cons_iff, ← List.isPrefixOf_iff_prefix]
    cases later : findLast? needle t with
    | some i =>
      have within : needle <:+: t := by
        by_contra absent
        rw [ih.mpr absent] at later
        cases later
      simp [within]
    | none => simp [ih.mp later]

theorem findLast?_arrow (a : Text) {rest : Text} (noArrow : ¬ ['=', '>'] <:+: rest) :
    findLast? ['=', '>'] (a ++ '=' :: '>' :: rest) = some a.length := by
  induction a with
  | nil =>
    have later : findLast? ['=', '>'] ('>' :: rest) = none := by
      apply (findLast?_eq_none_iff (by decide)).mpr
      intro within
      rcases List.infix_cons_iff.mp within with here | within
      · exact absurd (List.cons_prefix_cons.mp here).1 (by decide)
      · exact noArrow within
    rw [List.nil_append, findLast?, later]
    simp
  | cons c a ih => rw [List.cons_append, findLast?, ih, List.length_cons]

theorem arrowResult?_arrow {parameters gap rest : Text} (noArrow : ¬ ['=', '>'] <:+: rest) :
    arrowResult? ('(' :: (parameters ++ ')' :: (gap ++ '=' :: '>' :: rest))) =
      some (trim rest) := by
  have parts : '(' :: (parameters ++ ')' :: (gap ++ '=' :: '>' :: rest)) =
      '(' :: (parameters ++ ')' :: gap) ++ '=' :: '>' :: rest := by simp
  have found := findLast?_arrow ('(' :: (parameters ++ ')' :: gap)) noArrow
  rw [← parts, List.length_cons] at found
  have behind : ('(' :: (parameters ++ ')' :: (gap ++ '=' :: '>' :: rest))).drop
      ((parameters ++ ')' :: gap).length + 3) = rest := by
    have arrow : '(' :: (parameters ++ ')' :: (gap ++ '=' :: '>' :: rest)) =
        ('(' :: (parameters ++ ')' :: gap) ++ ['=', '>']) ++ rest := by simp
    have length : (parameters ++ ')' :: gap).length + 3 =
        ('(' :: (parameters ++ ')' :: gap) ++ ['=', '>']).length := by
      simp only [List.length_append, List.length_cons, List.length_nil]
    rw [arrow, length, List.drop_left]
  rw [arrowResult?, found]
  simp only [behind]
  rfl

structure Legible (t : Text) : Prop where
  pairs : PairsMatch (stripNullish t).length (trim (stripNullish t))
  instances : ∀ name arguments, generic? (bare t) = some (name, arguments) → Balanced arguments
  arrays : ∀ item, arrayItem? (bare t) = some item →
    Nested isOperandPart item ∧ PairsMatch item.length (trim item)

/-- The arrow that is found is the type's own: it follows the parameters, none follows it, and no
    nullish member has been taken from behind it. -/
def OwnArrow (t : Text) : Prop :=
  ∃ parameters gap rest, Balanced parameters ∧ allBlank gap = true ∧ ¬ ['=', '>'] <:+: rest ∧
    bare t = '(' :: (parameters ++ ')' :: (gap ++ '=' :: '>' :: rest)) ∧
    (trim t = bare t ∨ trim (stripNullish t) ≠ bare t)

variable {t : Text}

theorem Legible.sheds (legible : Legible t) : Sheds t (bare t) := sheds_bare legible.pairs

theorem Legible.arrayOf (legible : Legible t) {item : Text} (found : elementType? t = some item) :
    ArrayOf item (bare t) := by
  unfold elementType? at found
  split at found
  · rename_i operand array
    cases found
    obtain ⟨nested, pairs⟩ := legible.arrays operand array
    rw [arrayItem?_eq_some array]
    exact .suffix nested (.blanks (encloses_unwrapFrom pairs))
  · split at found
    · rename_i name arguments instanceFound
      obtain ⟨isArray, found⟩ := Option.ite_none_right_eq_some.mp found
      have balanced := legible.instances name arguments instanceFound
      exact .wrapper (by simpa using isArray) ⟨balanced, generic?_eq_some instanceFound⟩
        (Option.some.inj found).symm
    · cases found

theorem Legible.named (legible : Legible t) : Named (genericName (bare t)) (bare t) := by
  unfold genericName
  split
  · rename_i name arguments found
    exact .inr ⟨arguments, legible.instances name arguments found, generic?_eq_some found⟩
  · exact .inl rfl

theorem pairsMatch_of_open {t : Text} (other : (startsWith t ['('] && endsWith t [')']) = false)
    (fuel : Nat) : PairsMatch fuel t := by
  cases fuel with
  | zero => trivial
  | succ fuel =>
    intro enclosed
    rw [other] at enclosed
    cases enclosed

theorem legible_of_none
    (noPair : (startsWith (trim (stripNullish t)) ['('] &&
      endsWith (trim (stripNullish t)) [')']) = false)
    (noInstance : generic? (bare t) = none) (noArray : arrayItem? (bare t) = none) :
    Legible t where
  pairs := pairsMatch_of_open noPair _
  instances := by
    intro name arguments found
    rw [noInstance] at found
    cases found
  arrays := by
    intro item found
    rw [noArray] at found
    cases found

theorem functionTo_unwrapFrom {fuel : Nat} {t result : Text} (pairs : PairsMatch fuel t)
    (function : FunctionTo result (unwrapFrom fuel t)) : FunctionTo result t := by
  induction fuel generalizing t with
  | zero => exact function
  | succ fuel ih =>
    rw [unwrapFrom] at function
    split at function
    · rename_i enclosed
      obtain ⟨balanced, rest⟩ := pairs enclosed
      have whole := eq_parens enclosed
      exact .parens (whole ▸ .enclosed .refl) balanced (ih rest function)
    · exact function

theorem OwnArrow.functionTo (own : OwnArrow t)
    (pairs : PairsMatch (stripNullish t).length (trim (stripNullish t))) {result : Text}
    (found : arrowResult? (bare t) = some result) : FunctionTo result t := by
  obtain ⟨parameters, gap, rest, balanced, blank, noArrow, shape, whole⟩ := own
  rw [shape, arrowResult?_arrow noArrow] at found
  have function : FunctionTo result (bare t) := by
    rw [shape]
    exact .arrow balanced blank (Option.some.inj found).symm
  rcases whole with whole | apart
  · exact .blanks (whole ▸ function)
  · have reached : Sheds t (trim (stripNullish t)) :=
      (sheds_stripNullish t).trans (.enclosed (.blanks .refl))
    change FunctionTo result (unwrapFrom (stripNullish t).length (trim (stripNullish t))) at function
    change trim (stripNullish t) ≠ unwrapFrom (stripNullish t).length (trim (stripNullish t)) at apart
    generalize (stripNullish t).length = fuel at pairs function apart
    generalize trim (stripNullish t) = u at pairs function apart reached
    cases fuel with
    | zero => exact absurd rfl apart
    | succ fuel =>
      rw [unwrapFrom] at function apart
      split at function
      · rename_i enclosed
        obtain ⟨balanced, rest⟩ := pairs enclosed
        have inner := functionTo_unwrapFrom rest function
        rw [eq_parens enclosed] at reached
        exact .parens reached balanced inner
      · rename_i other
        rw [if_neg other] at apart
        exact absurd rfl apart

theorem Legible.call (legible : Legible t) {result : Text}
    (found : callResult t = .ok (some result)) :
    SignalOf result (bare t) ∨ arrowResult? (bare t) = some result := by
  unfold callResult at found
  split at found
  · rename_i name arguments instanceFound
    split at found
    · rename_i isSignal
      split at found
      · rename_i first others arguments
        cases found
        have balanced := legible.instances _ _ instanceFound
        exact .inl (.wrapper (by simpa using isSignal) ⟨balanced, generic?_eq_some instanceFound⟩
          arguments)
      · cases found
    · exact .inr (by simpa using found)
  · exact .inr (by simpa using found)

theorem single_of_nested {t : Text} (nested : Nested (· != '|') t) : Single t := by
  have misses := nested.misses '|' (s := .start) rfl (.inr (by decide))
  rw [Single, splitTop, topPiecesFrom_of_whole (misses.whole none)]
  exact (List.length_filter_le _ _).trans (by simp)

end TemplateTypes.TypeText
