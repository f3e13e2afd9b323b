import TemplateTypes.Proofs.Resolver.Rendering

namespace TemplateTypes

open Text TypeText

namespace Source

/-- A declared parameter: something stands in its place, and brackets match and literals are closed
    in its pattern and its type. -/
structure Parameter.WellFormed (p : Parameter) : Prop where
  visible : allBlank p.pattern = false
  pattern : Nested (fun c => c != ',' && c != ':' && c != '?' && c != '=') p.pattern
  type : ∀ t ∈ p.type, Nested (fun c => c != ',' && c != '=') t

def Parameter.declared (p : Parameter) : DeclaredType :=
  match p.type with
  | some (c :: type) => ⟨trim (collapse (c :: type)), p.optional⟩
  | _ => ⟨TypeText.any, p.optional⟩

def Parameter.head (p : Parameter) : Text := p.pattern ++ if p.optional then ['?'] else []

namespace Parameter

variable {p : Parameter}

theorem parameterText_cases (p : Parameter) :
    (TypeShape.parameterText p = p.head ∧ p.declared = ⟨TypeText.any, p.optional⟩) ∨
      ∃ t ∈ p.type, TypeShape.parameterText p = p.head ++ ':' :: ' ' :: t ∧
        p.declared = ⟨trim (collapse t), p.optional⟩ := by
  obtain ⟨pattern, type, optional, isProperty⟩ := p
  rcases type with _ | _ | ⟨c, type⟩
  · exact .inl ⟨rfl, rfl⟩
  · exact .inl ⟨rfl, rfl⟩
  · right
    refine ⟨c :: type, rfl, ?_, rfl⟩
    simp [TypeShape.parameterText, head]

theorem WellFormed.head (wellFormed : p.WellFormed) :
    Nested (fun c => c != ',' && c != ':' && c != '=') p.head := by
  have pattern : Nested (fun c => c != ',' && c != ':' && c != '=') p.pattern :=
    wellFormed.pattern.mono (by simp +contextual)
  rw [Parameter.head]
  split
  · exact pattern.append (.plain (by decide) (by decide) .nil)
  · exact pattern.append .nil

theorem WellFormed.text (wellFormed : p.WellFormed) :
    Nested (· != ',') (TypeShape.parameterText p) := by
  have head : Nested (· != ',') p.head := wellFormed.head.mono (by simp +contextual)
  rcases parameterText_cases p with ⟨text, _⟩ | ⟨t, typed, text, _⟩
  · rw [text]
    exact head
  · have type : Nested (· != ',') t := (wellFormed.type t typed).mono (by simp +contextual)
    rw [text]
    exact head.append (.plain (by decide) (by decide) (.plain (by decide) (by decide) type))

theorem WellFormed.visible_head (wellFormed : p.WellFormed) : allBlank p.head = false := by
  rw [Parameter.head, allBlank, List.all_append, ← allBlank, wellFormed.visible, Bool.false_and]

theorem WellFormed.visible_text (wellFormed : p.WellFormed) :
    allBlank (TypeShape.parameterText p) = false := by
  have visible := wellFormed.visible_head
  rcases parameterText_cases p with ⟨text, _⟩ | ⟨t, _, text, _⟩
  · rwa [text]
  · rw [text, allBlank, List.all_append, ← allBlank, visible, Bool.false_and]

theorem WellFormed.endsWith_mark (wellFormed : p.WellFormed) :
    endsWith (trim (collapse p.head)) ['?'] = p.optional := by
  rw [endsWith_single, trim_collapse, getLast?_collapse (trimmed_trim _), Parameter.head]
  cases optional : p.optional with
  | true =>
    have mark : isBlank '?' = false := by decide
    have kept : trim (p.pattern ++ ['?']) = trimStart p.pattern ++ ['?'] := by
      rw [trim, trimStart_append wellFormed.visible, trimEnd, dropEndWhile_append_cons mark]
      rfl
    simp [kept]
  | false =>
    have noMark : (trim p.pattern).getLast? ≠ some '?' := by
      intro last
      have outside := (wellFormed.pattern.trim (by decide)).of_getLast? last
      exact absurd (outside.2 (by decide)) (by decide)
    simpa using noMark

theorem WellFormed.parameterType (wellFormed : p.WellFormed) :
    Signature.parameterType (trim (collapse (TypeShape.parameterText p))) = p.declared := by
  have head := wellFormed.head.collapse (by decide)
  rcases parameterText_cases p with ⟨text, declared⟩ | ⟨t, typed, text, declared⟩
  · have outside : Nested (· != ':') (trim (collapse p.head)) :=
      (head.trim (by decide)).mono (by simp +contextual)
    rw [text, declared, Signature.parameterType_untyped outside, (trimmed_trim _).trimEnd_eq,
      wellFormed.endsWith_mark]
  · have outside : Nested (· != ':') (trimStart (collapse p.head)) :=
      head.trimStart.mono (by simp +contextual)
    have type := ((wellFormed.type t typed).collapse (by decide)).trim (by decide)
    have spaced : Nested (fun c => c != ',' && c != '=') (spaceBefore (trim (collapse t))) := by
      rw [spaceBefore]
      split
      · exact .nil
      · exact .plain (by decide) (by decide) type
    rw [text, declared, trim_collapse_colon wellFormed.visible_head,
      Signature.parameterType_typed outside spaced (by decide), trim_spaceBefore (trimmed_trim _),
      ← trim, wellFormed.endsWith_mark]

end Parameter

end Source

/-- What a method stands for: its first parameter, or its result when it has none. -/
def MemberInfo.standsFor (m : MemberInfo) : List Source.Parameter → DeclaredType
  | [] => ⟨tidy m.typeText, false⟩
  | first :: _ => first.declared

theorem Walk.render_method (owner : Text) {m : MemberInfo} (method : m.kind = .method) :
    Walk.render owner m = '(' :: 'm' :: ("ethod".toList ++ ')' :: ' ' ::
      (owner ++ '.' :: (m.name ++ '(' :: (join ", ".toList m.parameters ++ [')']))) ++
        ':' :: ' ' :: m.typeText) := by
  obtain ⟨name, kind, type, parameters, optional⟩ := m
  cases method
  rcases type with _ | _ | ⟨c, type⟩ <;> simp [Walk.render, MemberInfo.typeText]

theorem nested_join {texts : List Text} (balanced : ∀ t ∈ texts, Balanced t) :
    Balanced (join ", ".toList texts) := by
  have separator : Balanced ", ".toList :=
    .plain (by decide) rfl (.plain (by decide) rfl .nil)
  induction texts with
  | nil => exact .nil
  | cons first more ih =>
    have here := balanced first List.mem_cons_self
    have rest := ih fun t member => balanced t (List.mem_cons_of_mem first member)
    cases more with
    | nil => exact here
    | cons second more =>
      show Balanced (first ++ ", ".toList ++ join ", ".toList (second :: more))
      exact (here.append separator).append rest

theorem splitTop_parameters {p : Source.Parameter} (wellFormed : p.WellFormed)
    (texts : List Text) : ∃ more,
      splitTop ',' (collapse (join ", ".toList (TypeShape.parameterText p :: texts))) =
        trim (collapse (TypeShape.parameterText p)) :: more := by
  have comma : isBlank ',' = false := by decide
  have text := wellFormed.text.collapse (by decide)
  have visible : allBlank (collapse (TypeShape.parameterText p)) = false :=
    (allBlank_collapseFrom false _).trans wellFormed.visible_text
  have first := Signature.splitTop_first text (by decide) visible
  cases texts with
  | nil => exact ⟨[], (first []).1⟩
  | cons second more =>
    have parts : join ", ".toList (TypeShape.parameterText p :: second :: more) =
        TypeShape.parameterText p ++ ',' :: ' ' :: join ", ".toList (second :: more) := by
      simp [join]
    rw [parts, collapse, collapseFrom_append_cons comma, ← collapse]
    exact (first _).2

namespace Signature

variable {owner : Text} {m : MemberInfo} {parameters : List Source.Parameter}

def shownList (m : MemberInfo) : Text := collapse (join ", ".toList m.parameters)

theorem balanced_shownList (rendered : m.parameters = parameters.map TypeShape.parameterText)
    (wellFormed : ∀ p ∈ parameters, p.WellFormed) : Balanced (shownList m) := by
  rw [shownList, rendered]
  refine (nested_join fun t member => ?_).collapse rfl
  obtain ⟨p, inList, rfl⟩ := List.mem_map.mp member
  exact (wellFormed p inList).text.mono fun _ _ => rfl

theorem shown_render_method (ownerNamed : Source.IsIdentifier owner) (method : m.kind = .method)
    (named : IsName m.name) :
    withoutModifiers (withoutLabel (tidy (Walk.render owner m))) =
      owner ++ '.' :: (m.name ++ '(' :: (shownList m ++
        ')' :: ':' :: spaceBefore (tidy m.typeText))) := by
  have opens : isBlank '(' = false := by decide
  have closes : isBlank ')' = false := by decide
  have solidOwner : ∀ c ∈ owner, isBlank c = false := fun c member =>
    namesOnly_isSourceNamePart.solid c (ownerNamed.all c member)
  have solidName : ∀ c ∈ m.name, isBlank c = false := fun c member =>
    namesOnly_isNamePart.solid c (named.all c member)
  have spaced : collapse (m.name ++ '(' :: (join ", ".toList m.parameters ++ [')'])) =
      m.name ++ '(' :: (shownList m ++ [')']) := by
    rw [collapse, collapseFrom_append_cons opens, ← collapse, collapse_of_solid solidName, collapse,
      collapseFrom_append_cons closes]
    rfl
  rw [Walk.render_method owner method, withoutModifiers_withoutLabel_tidy (by decide)
    (by decide) ownerNamed.nonempty solidOwner, spaced]
  simp

theorem methodType_shownList (rendered : m.parameters = parameters.map TypeShape.parameterText)
    (wellFormed : ∀ p ∈ parameters, p.WellFormed) :
    methodType ('(' :: (shownList m ++ ')' :: ':' :: spaceBefore (tidy m.typeText))) =
      m.standsFor parameters := by
  obtain ⟨withFirst, withNone⟩ := methodType_parens (balanced_shownList rendered wellFormed)
    (':' :: spaceBefore (tidy m.typeText))
  rw [shownList, rendered] at withFirst withNone ⊢
  cases parameters with
  | nil =>
    have list : splitTop ',' (collapse (join ", ".toList
        (List.map TypeShape.parameterText []))) = [] := by decide
    rw [withNone _ list (trimmed_colon (trimmed_tidy m.typeText)).trim_eq,
      trim_spaceBefore (trimmed_tidy _)]
    rfl
  | cons p more =>
    have first := wellFormed p List.mem_cons_self
    obtain ⟨others, list⟩ := splitTop_parameters first (more.map TypeShape.parameterText)
    rw [← List.map_cons] at list
    rw [withFirst _ others list]
    exact first.parameterType

theorem propertyType_shown (ownerNamed : Source.IsIdentifier owner) (named : IsName m.name)
    (balanced : Balanced (shownList m)) (t : Text) :
    propertyType (owner ++ '.' :: (m.name ++ '(' :: (shownList m ++ ')' :: ':' :: t))) =
      ⟨trim t, false⟩ := by
  have closes : isBlank ')' = false := by decide
  have plainOwner : Nested (· != ':') owner :=
    nested_of_names namesOnly_isSourceNamePart ownerNamed.all (by decide)
  have plainName : Nested (· != ':') m.name :=
    nested_of_names namesOnly_isNamePart named.all (by decide)
  have list : Nested (· != ':') ('(' :: (shownList m ++ [')'])) :=
    .group (by decide) balanced .nil
  have nested : Nested (· != ':') (owner ++ '.' :: (m.name ++ '(' :: (shownList m ++ [')']))) :=
    plainOwner.append (.plain (by decide) (by decide) (plainName.append list))
  have parts : owner ++ '.' :: (m.name ++ '(' :: (shownList m ++ ')' :: ':' :: t)) =
      owner ++ '.' :: (m.name ++ '(' :: (shownList m ++ [')'])) ++ ':' :: t := by simp
  have last : owner ++ '.' :: (m.name ++ '(' :: (shownList m ++ [')'])) =
      (owner ++ '.' :: (m.name ++ '(' :: shownList m)) ++ [')'] := by simp
  have noMark : endsWith (trimEnd (owner ++ '.' :: (m.name ++ '(' ::
      (shownList m ++ [')'])))) ['?'] = false := by
    have none : dropEndWhile isBlank [] = [] := rfl
    rw [last, trimEnd, dropEndWhile_append_cons closes, none, endsWith_single, List.getLast?_concat]
    rfl
  rw [parts, propertyType_header nested, noMark]

/-- A method's rendered signature is read back if the class has a name that is read as a member
    name; otherwise its result's type is taken, whatever its parameters are. -/
theorem declared_render_method (ownerNamed : Source.IsIdentifier owner)
    (method : m.kind = .method) (named : IsName m.name)
    (rendered : m.parameters = parameters.map TypeShape.parameterText)
    (wellFormed : ∀ p ∈ parameters, p.WellFormed) :
    Signature.declared (Walk.render owner m) =
      if isMemberName owner then m.standsFor parameters else ⟨tidy m.typeText, false⟩ := by
  rw [Signature.declared, shown_render_method ownerNamed method named]
  cases readable : isMemberName owner with
  | true =>
    rw [methodTail?_of_isMemberName readable named]
    exact methodType_shownList rendered wellFormed
  | false =>
    rw [methodTail?_of_not_isMemberName ownerNamed.all ownerNamed.nonempty readable]
    dsimp only
    rw [propertyType_shown ownerNamed named (balanced_shownList rendered wellFormed),
      trim_spaceBefore (trimmed_tidy _)]
    rfl

def pickParameters : List Source.Parameter :=
  [⟨"{ key: id }".toList, some "Map<string,\n  number>".toList, false, false⟩,
    ⟨"done".toList, none, true, false⟩]

def pick : MemberInfo :=
  ⟨"pick".toList, .method, some "void".toList, pickParameters.map TypeShape.parameterText, false⟩

theorem wellFormed_pickParameters : ∀ p ∈ pickParameters, p.WellFormed := by
  have keys : Nested (fun c => c != ',' && c != ':' && c != '?' && c != '=') "{ key: id }".toList :=
    have braces : ('{', '}') ∈ brackets := by decide
    have inner : Balanced " key: id ".toList := nested_of_plain (by decide)
    .group braces inner .nil
  have map : Nested (fun c => c != ',' && c != '=') "Map<string,\n  number>".toList :=
    have angles : ('<', '>') ∈ brackets := by decide
    have inner : Balanced "string,\n  number".toList := nested_of_plain (by decide)
    (nested_of_plain (t := "Map".toList) (by decide)).append (.group angles inner .nil)
  intro p member
  rcases List.mem_cons.mp member with rfl | member
  · exact ⟨by decide, keys, fun t typed => Option.some.inj typed ▸ map⟩
  · obtain rfl := List.mem_singleton.mp member
    exact ⟨by decide, nested_of_plain (by decide), fun t typed => absurd typed (by simp)⟩

theorem declared_render_pick :
    Signature.declared (Walk.render "App".toList pick) = ⟨"Map<string, number>".toList, false⟩ := by
  have owner : Source.IsIdentifier "App".toList := by decide +kernel
  have read := declared_render_method (m := pick) owner rfl (by decide +kernel) rfl
    wellFormed_pickParameters
  exact read.trans (by decide +kernel)

/-- Beyond ASCII no name of a class is read as a member name, and the result hides the parameter. -/
theorem declared_render_accented :
    Source.IsIdentifier "Élan".toList ∧ IsName pick.name ∧
      (∀ p ∈ pickParameters, p.WellFormed) ∧
      pick.standsFor pickParameters = ⟨"Map<string, number>".toList, false⟩ ∧
      Signature.declared (Walk.render "Élan".toList pick) = ⟨"void".toList, false⟩ := by
  exact ⟨by decide +kernel, by decide +kernel, wellFormed_pickParameters, by decide +kernel,
    by decide +kernel⟩

end Signature

end TemplateTypes
