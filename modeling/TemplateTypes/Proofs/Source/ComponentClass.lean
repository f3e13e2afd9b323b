import TemplateTypes.Source.Parser
import TemplateTypes.Source.Shape
import TemplateTypes.Proofs.Text.Search

namespace TemplateTypes.Source

open Text

/-- The callee of some decorator is the word for components and nothing else. -/
def Declaration.isDecorated (d : Declaration) : Bool :=
  d.decorators.any (·.callee == "Component".toList)

theorem Decorator.callee_isInfix (d : Decorator) : d.callee <:+: d.text :=
  (List.take_prefix _ _).isInfix.trans (List.drop_suffix _ _).isInfix

theorem Declaration.isComponent_of_isDecorated {d : Declaration} (decorated : d.isDecorated = true) :
    d.isComponent = true := by
  obtain ⟨decorator, member, callee⟩ := List.any_eq_true.mp decorated
  obtain ⟨before, behind, parts⟩ := decorator.callee_isInfix
  obtain ⟨i, found⟩ := exists_find? before decorator.callee behind
  refine List.any_eq_true.mpr ⟨decorator, member, ?_⟩
  rw [← List.append_assoc, parts, beq_iff_eq.mp callee] at found
  rw [includes, found]
  rfl

theorem Declaration.isDecorated_eq_false {d : Declaration} (silent : d.isComponent = false) :
    d.isDecorated = false :=
  Bool.eq_false_iff.mpr fun decorated =>
    Bool.eq_false_iff.mp silent (isComponent_of_isDecorated decorated)

def IsFirst (p : Declaration → Bool) (found : List Declaration) (c : Declaration) : Prop :=
  ∃ before after, found = before ++ c :: after ∧ p c = true ∧ ∀ b ∈ before, p b = false

/-- The class that stands for the component when some are marked: the first marked one, without one
    the first that is exported, and without that the first. -/
inductive ChosenBy (marked : Declaration → Bool) (found : List Declaration) :
    Option Declaration → Prop
  | marked {c : Declaration} (first : IsFirst marked found c) : ChosenBy marked found (some c)
  | exported {c : Declaration} (unmarked : ∀ d ∈ found, marked d = false)
      (first : IsFirst (·.exported) found c) : ChosenBy marked found (some c)
  | first {c : Declaration} (unmarked : ∀ d ∈ found, marked d = false)
      (internal : ∀ d ∈ found, d.exported = false) (first : found.head? = some c) :
      ChosenBy marked found (some c)
  | none (empty : found = []) : ChosenBy marked found none

section

variable {marked p : Declaration → Bool} {found : List Declaration} {c : Declaration}

theorem isFirst_iff : IsFirst p found c ↔ found.find? p = some c := by
  rw [List.find?_eq_some_iff_append]
  constructor
  · rintro ⟨before, after, parts, has, earlier⟩
    exact ⟨has, before, after, parts, by simpa using earlier⟩
  · rintro ⟨has, before, after, parts, earlier⟩
    exact ⟨before, after, parts, has, by simpa using earlier⟩

theorem find?_none_iff : found.find? p = none ↔ ∀ d ∈ found, p d = false := by
  simp [List.find?_eq_none]

theorem chosenBy_iff {chosen : Option Declaration} :
    ChosenBy marked found chosen ↔
      chosen = ((found.find? marked) <|> (found.find? (·.exported)) <|> found.head?) := by
  constructor
  · rintro (first | ⟨unmarked, first⟩ | ⟨unmarked, internal, first⟩ | rfl)
    · rw [isFirst_iff.mp first]
      rfl
    · rw [find?_none_iff.mpr unmarked, isFirst_iff.mp first]
      rfl
    · rw [find?_none_iff.mpr unmarked, find?_none_iff.mpr internal, first]
      rfl
    · rfl
  · rintro rfl
    cases isMarked : found.find? marked with
    | some c => exact .marked (isFirst_iff.mpr isMarked)
    | none =>
      have unmarked := find?_none_iff.mp isMarked
      cases isExported : found.find? (·.exported) with
      | some c => exact .exported unmarked (isFirst_iff.mpr isExported)
      | none =>
        cases first : found.head? with
        | some c => exact .first unmarked (find?_none_iff.mp isExported) first
        | none => exact .none (List.head?_eq_none_iff.mp first)

end

theorem componentClass?_eq (declarations : List Declaration) :
    ∃ chosen, ChosenBy Declaration.isComponent (classes declarations) chosen ∧
      componentClass? declarations = chosen.map (·.name) :=
  ⟨_, chosenBy_iff.mpr rfl, rfl⟩

/-- The name of a file's component is that of the first class decorated as one, without one that of
    the first exported class, and without that of the first class, just where the first class with a
    decorator that mentions the word is decorated so or has the same name. Classes that do not
    mention it, exports, other decorators and their arguments make no difference. -/
theorem componentClass?_decorated_iff (declarations : List Declaration) :
    (∃ chosen, ChosenBy Declaration.isDecorated (classes declarations) chosen ∧
        componentClass? declarations = chosen.map (·.name)) ↔
      ∀ c, IsFirst Declaration.isComponent (classes declarations) c →
        c.isDecorated = true ∨
          ∃ d, ChosenBy Declaration.isDecorated (classes declarations) (some d) ∧
            d.name = c.name := by
  obtain ⟨taken, rule, named⟩ := componentClass?_eq declarations
  rw [named]
  constructor
  · rintro ⟨chosen, claimed, same⟩ c first
    have isTaken : taken = some c := by
      rw [chosenBy_iff.mp rule, isFirst_iff.mp first]
      rfl
    rw [isTaken] at same
    cases chosen with
    | none => cases same
    | some d => exact .inr ⟨d, claimed, (Option.some.inj same).symm⟩
  · intro agrees
    cases rule with
    | @marked c first =>
      rcases agrees c first with decorated | ⟨d, claimed, same⟩
      · -- What is decorated mentions the word, so no class before it is.
        obtain ⟨before, after, parts, _, earlier⟩ := first
        exact ⟨some c, .marked ⟨before, after, parts, decorated, fun b member =>
          Declaration.isDecorated_eq_false (earlier b member)⟩, rfl⟩
      · exact ⟨some d, claimed, congrArg some same.symm⟩
    | exported silent first =>
      exact ⟨_, .exported (fun d member => Declaration.isDecorated_eq_false (silent d member)) first,
        rfl⟩
    | first silent internal first =>
      exact ⟨_, .first (fun d member => Declaration.isDecorated_eq_false (silent d member)) internal
        first, rfl⟩
    | none empty => exact ⟨_, .none empty, rfl⟩

/-- Two classes of which the second is the component, and the first one's selector says the word. -/
def mentionedFirst : List Declaration :=
  (Module.ofText ("@Directive(\x7b selector: 'MyComponent' \x7d)\nclass A \x7b\x7d\n".toList ++
    "@Component(\x7b\x7d)\nclass B \x7b\x7d\n".toList) false).declarations

theorem componentClass?_mentioned :
    componentClass? mentionedFirst = some "A".toList ∧
      ∃ d, ChosenBy Declaration.isDecorated (classes mentionedFirst) (some d) ∧
        d.name = "B".toList := by
  have decorated : ((classes mentionedFirst).find? (·.isDecorated)).map (·.name) =
      some "B".toList := by decide +kernel
  obtain ⟨d, first, named⟩ := Option.map_eq_some_iff.mp decorated
  exact ⟨by decide +kernel, d, .marked (isFirst_iff.mpr first), named⟩

end TemplateTypes.Source
