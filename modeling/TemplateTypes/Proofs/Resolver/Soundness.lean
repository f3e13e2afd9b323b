import TemplateTypes.Proofs.Text.Names
import TemplateTypes.Proofs.TypeText.Structure
import TemplateTypes.Resolver.Walk

namespace TemplateTypes

open Text TypeText

namespace Walk

def Settled (s : State) : Prop := ∀ m ∈ s.member, m.kind = .property

inductive Rule (shapes : List TypeShape) (s : State) : ChainStep → State → Prop
  | member {t base name : Text} {shape : TypeShape} {m : MemberInfo} : Settled s →
      s.type = some t → Sheds t base → Single base →
      shapes.find? (·.name == shape.name) = some shape → Named shape.name base →
      shape.member? name = some m →
      Rule shapes s (.member name)
        ⟨m.type, shape.name, some m, name, some (render shape.name m)⟩
  | length {t base : Text} : Settled s → s.type = some t → Sheds t base → Single base →
      (base = "string".toList ∨ ∃ item, ArrayOf item base) →
      Rule shapes s (.member lengthName)
        ⟨lengthMember.type, s.owner, some lengthMember, lengthName,
          some (render s.owner lengthMember)⟩
  | index {t base item subscript : Text} : Settled s → s.type = some t → Sheds t base →
      ArrayOf item base →
      Rule shapes s (.index subscript)
        { s with type := some item, member := none
                 signature := some (propertyText s.name item) }
  | callMethod {m : MemberInfo} {arguments : Text} : s.member = some m → m.kind = .method →
      Rule shapes s (.call arguments) { s with type := m.type, member := none }
  | callFunction {t result arguments : Text} : Settled s → s.type = some t →
      FunctionTo result t →
      Rule shapes s (.call arguments)
        { s with type := some result, member := none
                 signature := some (propertyText s.name result) }
  | callSignal {t base value arguments : Text} : Settled s → s.type = some t → Sheds t base →
      SignalOf value base →
      Rule shapes s (.call arguments)
        { s with type := some value, member := none
                 signature := some (propertyText s.name value) }

inductive Typed (shapes : List TypeShape) : State → List ChainStep → State → Prop
  | done {s : State} : Typed shapes s [] s
  | step {s next final : State} {first : ChainStep} {more : List ChainStep} :
      Rule shapes s first next → Typed shapes next more final →
      Typed shapes s (first :: more) final

/-- A signature that shows the type: a member's own, or one made up for a value. -/
inductive States (signature : Text) : Option Text → Prop
  | member {owner : Text} {m : MemberInfo} : signature = render owner m → States signature m.type
  | value {name type : Text} : signature = propertyText name type → States signature (some type)

def LegibleStep (s : State) : ChainStep → Prop
  | .member name =>
    Settled s ∧ ∀ t ∈ s.type, Legible t ∧ (name = lengthName → Legible (bare t))
  | .index _ => Settled s ∧ ∀ t ∈ s.type, Legible t
  | .call _ => Settled s → ∀ t ∈ s.type, Legible t ∧
      ∀ result, arrowResult? (bare t) = some result → OwnArrow t

def Along (shapes : List TypeShape) (P : State → ChainStep → Prop) (s : State) :
    List ChainStep → Prop
  | [] => True
  | first :: more =>
    P s first ∧ ∀ next, step shapes s first = .ok (some next) → Along shapes P next more

variable {shapes : List TypeShape} {s next : State}

theorem single_of_named {name base : Text} (identifier : Source.IsIdentifier name)
    (named : Named name base) : Single base := by
  have plain : Nested (· != '|') name :=
    nested_of_names namesOnly_isSourceNamePart identifier.all (by decide)
  apply single_of_nested
  rcases named with rfl | ⟨arguments, balanced, rfl⟩
  · exact plain
  · exact plain.append (.group (by decide) balanced .nil)

theorem single_of_arrayOf {item base : Text} (array : ArrayOf item base) : Single base := by
  apply single_of_nested
  cases array with
  | suffix operand _ =>
    have brackets : Nested (· != '|') ['[', ']'] :=
      have pair : ('[', ']') ∈ brackets := by decide
      .group pair .nil .nil
    have outside : ∀ c, isOperandPart c = true → (c != '|') = true := by
      rintro c part
      simp only [isOperandPart, Bool.and_eq_true] at part
      simp [part]
    exact (operand.mono outside).append brackets
  | wrapper isArray instanceOf _ =>
    obtain ⟨balanced, rfl⟩ := instanceOf
    have plain : ∀ name ∈ arrayNames, name.all (fun c => isPlain c && c != '|') = true := by decide
    exact (nested_of_plain (plain _ isArray)).append (.group (by decide) balanced .nil)

theorem lookup_rule (names : ∀ shape ∈ shapes, Source.IsIdentifier shape.name)
    {t name owner : Text} {m : MemberInfo} (settled : Settled s) (typed : s.type = some t)
    (legible : Legible t) (base : name = lengthName → Legible (bare t))
    (found : lookup shapes s.owner t name = some (owner, m)) :
    Rule shapes s (.member name) ⟨m.type, owner, some m, name, some (render owner m)⟩ := by
  unfold lookup at found
  dsimp only at found
  split at found
  · rename_i length
    cases found
    rw [Bool.and_eq_true, Bool.or_eq_true, beq_iff_eq, beq_iff_eq] at length
    obtain ⟨rfl, array | string⟩ := length
    · obtain ⟨item, element⟩ := Option.isSome_iff_exists.mp array
      have legibleBase := base rfl
      have arrayOf := legibleBase.arrayOf element
      exact .length settled typed (legible.sheds.trans legibleBase.sheds)
        (single_of_arrayOf arrayOf) (.inr ⟨item, arrayOf⟩)
    · have single : Single "string".toList := by decide
      exact .length settled typed legible.sheds (string ▸ single) (.inl string)
  · split at found
    · cases found
    · rename_i shape declared
      obtain ⟨m, member, same⟩ := Option.map_eq_some_iff.mp found
      cases same
      have sameName : shape.name = genericName (bare t) := by
        simpa using List.find?_some declared
      have identifier := names shape (List.mem_of_find?_eq_some declared)
      have named : Named shape.name (bare t) := sameName ▸ legible.named
      rw [← sameName] at declared
      exact .member settled typed legible.sheds (single_of_named identifier named) declared named
        member

theorem rule_step (names : ∀ shape ∈ shapes, Source.IsIdentifier shape.name) {first : ChainStep}
    (legible : LegibleStep s first) (taken : step shapes s first = .ok (some next)) :
    Rule shapes s first next := by
  cases first with
  | member name =>
    obtain ⟨settled, readable⟩ := legible
    dsimp only [step] at taken
    split at taken
    · cases taken
    · rename_i t typed
      obtain ⟨plain, base⟩ := readable t typed
      split at taken
      · cases taken
      · rename_i owner m found
        cases taken
        exact lookup_rule names settled typed plain base found
  | index subscript =>
    obtain ⟨settled, readable⟩ := legible
    dsimp only [step] at taken
    split at taken
    · cases taken
    · rename_i item element
      cases taken
      obtain ⟨t, typed, element⟩ := Option.bind_eq_some_iff.mp element
      exact .index settled typed (readable t typed).sheds ((readable t typed).arrayOf element)
  | call arguments =>
    dsimp only [step] at taken
    split at taken
    · rename_i result waiting
      cases taken
      exact .callMethod waiting rfl
    · rename_i other
      have settled : Settled s := by
        rintro ⟨name, kind, type, parameters, optional⟩ waiting
        cases kind with
        | property => rfl
        | method => exact absurd waiting (other _ _ _ _)
      split at taken
      · cases taken
      · rename_i t typed
        obtain ⟨plain, own⟩ := legible settled t typed
        split at taken
        · cases taken
        · cases taken
        · rename_i result called
          cases taken
          rcases plain.call called with signal | arrow
          · exact .callSignal settled typed plain.sheds signal
          · exact .callFunction settled typed ((own result arrow).functionTo plain.pairs arrow)

theorem typed_steps (names : ∀ shape ∈ shapes, Source.IsIdentifier shape.name)
    {chain : List ChainStep} {signature : Text} (legible : Along shapes LegibleStep s chain)
    (found : steps shapes s chain = .ok (some signature)) :
    ∃ final, Typed shapes s chain final ∧ final.signature = some signature := by
  induction chain generalizing s with
  | nil => exact ⟨s, .done, by simpa [steps] using found⟩
  | cons first more ih =>
    obtain ⟨here, later⟩ := legible
    rw [steps] at found
    split at found
    · cases found
    · cases found
    · rename_i next taken
      obtain ⟨final, rest, states⟩ := ih (later next taken) found
      exact ⟨final, .step (rule_step names here taken) rest, states⟩

theorem Rule.of_member {name : Text} (rule : Rule shapes s (.member name) next) :
    Settled s ∧ (∃ t ∈ s.type, ∃ base, Sheds t base ∧ Single base) ∧
      (name = lengthName ∨ ∃ shape ∈ shapes, ∃ m ∈ shape.member? name,
        next.type = m.type ∧ next.member = some m) := by
  generalize taken : ChainStep.member name = first at rule
  cases rule with
  | member settled typed sheds single declared _ found =>
    cases taken
    exact ⟨settled, ⟨_, typed, _, sheds, single⟩,
      .inr ⟨_, List.mem_of_find?_eq_some declared, _, found, rfl, rfl⟩⟩
  | length settled typed sheds single _ =>
    exact ⟨settled, ⟨_, typed, _, sheds, single⟩, .inl (ChainStep.member.inj taken)⟩
  | index _ _ _ _ => cases taken
  | callMethod _ _ => cases taken
  | callFunction _ _ _ => cases taken
  | callSignal _ _ _ _ => cases taken

structure Shown (s : State) : Prop where
  member : ∀ m ∈ s.member, s.type = m.type
  signature : ∀ signature ∈ s.signature, States signature s.type

theorem Rule.shown {first : ChainStep} (rule : Rule shapes s first next) (shown : Shown s) :
    Shown next := by
  have value : ∀ {type : Text}, ∀ signature ∈ some (propertyText s.name type),
      States signature (some type) := by
    rintro type _ ⟨⟩
    exact .value rfl
  cases rule with
  | member _ _ _ _ _ _ _ =>
    constructor
    · rintro m ⟨⟩
      rfl
    · rintro _ ⟨⟩
      exact .member rfl
  | length _ _ _ _ _ =>
    constructor
    · rintro m ⟨⟩
      rfl
    · rintro _ ⟨⟩
      exact .member rfl
  | index _ _ _ _ => exact ⟨by simp, value⟩
  | callMethod waiting _ =>
    refine ⟨by simp, fun signature states => ?_⟩
    rw [← shown.member _ waiting]
    exact shown.signature signature states
  | callFunction _ _ _ => exact ⟨by simp, value⟩
  | callSignal _ _ _ _ => exact ⟨by simp, value⟩

theorem Typed.shown {chain : List ChainStep} {final : State} (typed : Typed shapes s chain final)
    (shown : Shown s) : Shown final := by
  induction typed with
  | done => exact shown
  | step rule _ ih => exact ih (rule.shown shown)

end Walk

open Walk

/-- A walk along legible types gives a signature only for a chain that the rules give a type, and
    the signature states that type. -/
theorem walkChain_sound {shapes : List TypeShape} {owner : Text} {chain : List ChainStep}
    {signature : Text} (names : ∀ shape ∈ shapes, Source.IsIdentifier shape.name)
    (legible : Along shapes LegibleStep (start owner) chain)
    (found : walkChain shapes owner chain = .ok (some signature)) :
    ∃ final, Typed shapes (start owner) chain final ∧ final.signature = some signature ∧
      States signature final.type := by
  obtain ⟨final, typed, ends⟩ := typed_steps names legible found
  have shown : Shown (start owner) := ⟨by simp [start], by simp [start]⟩
  exact ⟨final, typed, ends, (typed.shown shown).signature signature ends⟩

namespace Walk

/-- Shapes of a user, of two generic classes and of an owner with members of these types. -/
def ownerShapes : List TypeShape :=
  [⟨"User".toList, [⟨"name".toList, .property, some "string".toList, [], false⟩], false, false⟩,
    ⟨"Box".toList, [⟨"value".toList, .property, some "T".toList, [], false⟩], false, false⟩,
    ⟨"Crate".toList, [⟨"label".toList, .property, some "string".toList, [], false⟩], false, false⟩,
    ⟨"Owner".toList,
      [⟨"users".toList, .property, some "(User | null)[] | undefined".toList, [], false⟩,
        ⟨"getUser".toList, .method, some "User".toList, [], false⟩,
        ⟨"mix".toList, .property, some "Box<string> | Crate<number>".toList, [], false⟩],
      true, true⟩]

end Walk

theorem Walk.along_cons {shapes : List TypeShape} {P : State → ChainStep → Prop} {s next : State}
    {first : ChainStep} {more : List ChainStep} (here : P s first)
    (taken : step shapes s first = .ok (some next)) (later : Along shapes P next more) :
    Along shapes P s (first :: more) := by
  refine ⟨here, fun other reached => ?_⟩
  rw [taken] at reached
  cases reached
  exact later

theorem Walk.legible_users : Legible "(User | null)[] | undefined".toList where
  pairs := pairsMatch_of_open (by decide) _
  instances := by
    have none : generic? (bare "(User | null)[] | undefined".toList) = none := by decide
    intro name arguments found
    rw [none] at found
    cases found
  arrays := by
    have some : arrayItem? (bare "(User | null)[] | undefined".toList) =
        some "(User | null)".toList := by decide
    have inner : Balanced "User | null".toList := nested_of_plain (by decide)
    intro item found
    rw [some] at found
    cases found
    have parens : ('(', ')') ∈ brackets := by decide
    exact ⟨.group parens inner .nil, fun _ => ⟨inner, pairsMatch_of_open (by decide) _⟩⟩

theorem walkChain_sound_users :
    ∃ final, Typed ownerShapes (start "Owner".toList)
        [.member "users".toList, .index ['0'], .member "name".toList] final ∧
      final.signature = some "(property) User.name: string".toList ∧
      States "(property) User.name: string".toList final.type := by
  have names : ∀ shape ∈ ownerShapes, Source.IsIdentifier shape.name := by decide
  apply walkChain_sound names
  · have noLength : ∀ {P : Prop} {name : Text}, name ≠ lengthName → name = lengthName → P :=
      fun other length => absurd length other
    refine along_cons ⟨by simp [Settled, start], ?_⟩ rfl
      (along_cons ⟨?_, ?_⟩ rfl (along_cons ⟨by simp [Settled], ?_⟩ rfl trivial))
    · rintro t ⟨⟩
      exact ⟨legible_of_none (by decide) (by decide) (by decide), noLength (by decide)⟩
    · rintro m ⟨⟩
      rfl
    · rintro t ⟨⟩
      exact legible_users
    · rintro t ⟨⟩
      exact ⟨legible_of_none (by decide) (by decide) (by decide), noLength (by decide)⟩
  · rfl

theorem Walk.not_typed_mix (final : State) : ¬ Typed ownerShapes (start "Owner".toList)
    [.member "mix".toList, .member "value".toList] final := by
  rintro (_ | ⟨first, _ | ⟨second, _⟩⟩)
  obtain ⟨_, _, length | ⟨shape, known, m, declared, typed, _⟩⟩ := first.of_member
  · exact absurd length (by decide)
  · have mix : ∀ shape ∈ ownerShapes, ∀ m ∈ shape.member? "mix".toList,
        m.type = some "Box<string> | Crate<number>".toList := by decide
    obtain ⟨_, ⟨t, union, base, sheds, single⟩, _⟩ := second.of_member
    rw [typed, mix shape known m declared] at union
    obtain rfl := Option.some.inj union
    obtain rfl := sheds.eq (by decide) (by decide) (by decide)
    exact absurd single (by decide)

theorem Walk.not_typed_getUser (final : State) : ¬ Typed ownerShapes (start "Owner".toList)
    [.member "getUser".toList, .member "name".toList] final := by
  rintro (_ | ⟨first, _ | ⟨second, _⟩⟩)
  obtain ⟨_, _, length | ⟨shape, known, m, declared, _, waiting⟩⟩ := first.of_member
  · exact absurd length (by decide)
  · have getUser : ∀ shape ∈ ownerShapes, ∀ m ∈ shape.member? "getUser".toList,
        m.kind = .method := by decide
    have called := second.of_member.1 m waiting
    rw [getUser shape known m declared] at called
    cases called

/-- A member is found on a union of two generic types, and on a method that is not called. -/
theorem walkChain_untyped :
    walkChain ownerShapes "Owner".toList [.member "mix".toList, .member "value".toList] =
        .ok (some "(property) Box.value: T".toList) ∧
      (¬ ∃ final, Typed ownerShapes (start "Owner".toList)
        [.member "mix".toList, .member "value".toList] final) ∧
      walkChain ownerShapes "Owner".toList [.member "getUser".toList, .member "name".toList] =
        .ok (some "(property) User.name: string".toList) ∧
      ¬ ∃ final, Typed ownerShapes (start "Owner".toList)
        [.member "getUser".toList, .member "name".toList] final := by
  refine ⟨rfl, ?_, rfl, ?_⟩
  · rintro ⟨final, typed⟩
    exact not_typed_mix final typed
  · rintro ⟨final, typed⟩
    exact not_typed_getUser final typed

end TemplateTypes
