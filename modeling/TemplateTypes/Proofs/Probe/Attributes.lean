import TemplateTypes.Proofs.Probe.Layout
import TemplateTypes.Proofs.Text.Search

namespace TemplateTypes.Probe

open Text

/-- What names are made of: no quotes, brackets, parentheses, equals signs and blanks. -/
def isNameSign (c : Char) : Bool :=
  !(c == singleQuote || c == doubleQuote || c == '[' || c == ']' || c == '(' || c == ')' ||
    c == '=' || isBlank c)

def beforeName : BindingKind → Text
  | .input => ['[']
  | .output => ['(']
  | .model => ['[', '(']

def behindName : BindingKind → Text
  | .input => [']', '=', doubleQuote]
  | .output => [')', '=', doubleQuote]
  | .model => [')', ']', '=', doubleQuote]

/-- An attribute read from its name on, and what follows the quote that ends its value. -/
def named? (kind : BindingKind) (t : Text) : Option (Binding × Text) :=
  match after? (behindName kind) (t.dropWhile isNameSign) with
  | none => none
  | some value =>
    match cut doubleQuote value with
    | (_, none) => none
    | (value, some rest) => some (⟨t.takeWhile isNameSign, value, kind⟩, rest)

def attribute? : Text → Option (Binding × Text)
  | '[' :: '(' :: t => named? .model t
  | '[' :: t => named? .input t
  | '(' :: t => named? .output t
  | _ => none

def attributesFrom : (skip : Nat) → Text → List Binding
  | _, [] => []
  | skip + 1, _ :: rest => attributesFrom skip rest
  | 0, c :: rest =>
    match attribute? (c :: rest) with
    | some (b, after) => b :: attributesFrom (rest.length - after.length) rest
    | none => attributesFrom 0 rest

def attributes (t : Text) : List Binding := attributesFrom 0 t

theorem attributes_append {a : Text} (plain : a.all (fun c => c != '[' && c != '(') = true)
    (t : Text) : attributes (a ++ t) = attributes t := by
  induction a with
  | nil => rfl
  | cons c a ih =>
    rw [List.all_cons, Bool.and_eq_true, Bool.and_eq_true, bne_iff_ne, bne_iff_ne] at plain
    obtain ⟨⟨noSquare, noRound⟩, later⟩ := plain
    have none : attribute? (c :: (a ++ t)) = none := by simp [attribute?, noSquare, noRound]
    rw [List.cons_append, attributes, attributesFrom, none]
    exact ih later

theorem attributesFrom_length (a t : Text) : attributesFrom a.length (a ++ t) = attributes t := by
  induction a with
  | nil => rfl
  | cons c a ih => exact ih

theorem attributes_of_attribute? {a t after : Text} {b : Binding} (parts : t = a ++ after)
    (nonempty : a ≠ []) (first : attribute? t = some (b, after)) :
    attributes t = b :: attributes after := by
  subst parts
  cases a with
  | nil => exact absurd rfl nonempty
  | cons c a =>
    have behind : (a ++ after).length - after.length = a.length := by simp
    rw [List.cons_append] at first ⊢
    rw [attributes, attributesFrom, first]
    dsimp only
    rw [behind, attributesFrom_length]

section

variable {kind : BindingKind} {name value : Text}

theorem cut_append {c : Char} {a : Text} (free : c ∉ a) (t : Text) :
    cut c (a ++ c :: t) = (a, some t) := by
  have passed : ∀ d ∈ a, (d != c) = true := by
    intro d member
    simpa using ne_of_mem_of_not_mem member free
  simp [cut, List.dropWhile_append_of_pos passed, List.takeWhile_append_of_pos passed]

theorem named?_eq (named : name.all isNameSign = true) (delimited : doubleQuote ∉ value)
    (rest : Text) :
    named? kind (name ++ (behindName kind ++ (value ++ doubleQuote :: rest))) =
      some (⟨name, value, kind⟩, rest) := by
  have stops : ∀ t : Text, (behindName kind ++ t).takeWhile isNameSign = [] ∧
      (behindName kind ++ t).dropWhile isNameSign = behindName kind ++ t := by
    intro t
    have facts : isNameSign ']' = false ∧ isNameSign ')' = false := by decide
    cases kind <;> simp [behindName, facts]
  have ended : after? (behindName kind) (behindName kind ++ (value ++ doubleQuote :: rest)) =
      some (value ++ doubleQuote :: rest) := after?_eq_some_iff.mpr rfl
  have signs := List.all_eq_true.mp named
  rw [named?, List.dropWhile_append_of_pos signs, List.takeWhile_append_of_pos signs,
    (stops _).1, (stops _).2, ended, List.append_nil]
  dsimp only
  rw [cut_append delimited]

theorem attribute?_eq (named : name.all isNameSign = true) (t : Text) :
    attribute? (beforeName kind ++ (name ++ (behindName kind ++ t))) =
      named? kind (name ++ (behindName kind ++ t)) := by
  cases kind with
  | output | model => rfl
  | input =>
    -- A name that began with a parenthesis would make it an attribute of two ways.
    cases name with
    | nil => rfl
    | cons c name =>
      have other : c ≠ '(' := by
        rintro rfl
        exact absurd (List.all_eq_true.mp named '(' List.mem_cons_self) (by decide)
      simp [beforeName, attribute?, other]

theorem attributes_attribute (named : name.all isNameSign = true)
    (delimited : doubleQuote ∉ value) (rest : Text) :
    attributes (beforeName kind ++ (name ++ (behindName kind ++ (value ++ doubleQuote :: rest)))) =
      ⟨name, value, kind⟩ :: attributes rest := by
  apply attributes_of_attribute?
    (a := beforeName kind ++ name ++ behindName kind ++ value ++ [doubleQuote])
  · simp only [List.append_assoc, List.singleton_append]
  · simp
  · rw [attribute?_eq named, named?_eq named delimited]

end

theorem template_eq (bindings : List Binding) :
    template bindings = "<div>".toList ++ linesAfter bindings := by
  simp [template, linesAfter, join_cons, List.flatMap_map]

theorem opening_eq (b : Binding) : ∃ tag : Text, tag.all (fun c => c != '[' && c != '(') = true ∧
    opening b = tag ++ (beforeName b.kind ++ (b.name ++ behindName b.kind)) := by
  cases kind : b.kind with
  | input => exact ⟨"  <span ".toList, by decide, by simp [opening, kind, beforeName, behindName]⟩
  | output =>
    exact ⟨"  <button ".toList, by decide, by simp [opening, kind, beforeName, behindName]⟩
  | model => exact ⟨"  <input ".toList, by decide, by simp [opening, kind, beforeName, behindName]⟩

theorem closing_eq (b : Binding) : ∃ tail : Text, tail.all (fun c => c != '[' && c != '(') = true ∧
    closing b = doubleQuote :: tail := by
  cases kind : b.kind with
  | input => exact ⟨">Text</span>".toList, by decide, by simp [closing, kind]⟩
  | output => exact ⟨">Button</button>".toList, by decide, by simp [closing, kind]⟩
  | model => exact ⟨" />".toList, by decide, by simp [closing, kind]⟩

theorem attributes_line {b : Binding} (named : b.name.all isNameSign = true)
    {value rest : Text} (delimited : doubleQuote ∉ value)
    (parts : b.expression ++ closing b = value ++ doubleQuote :: rest) (t : Text) :
    attributes (line b ++ t) = ⟨b.name, value, b.kind⟩ :: attributes (rest ++ t) := by
  obtain ⟨tag, plain, opening⟩ := opening_eq b
  have whole : line b ++ t = tag ++ (beforeName b.kind ++
      (b.name ++ (behindName b.kind ++ (value ++ doubleQuote :: (rest ++ t))))) := by
    rw [line, List.append_assoc (Probe.opening b), parts, opening]
    simp only [List.append_assoc, List.cons_append]
  rw [whole, attributes_append plain, attributes_attribute named delimited]

theorem linesAfter_cons (b : Binding) (more : List Binding) :
    linesAfter (b :: more) = ['\n'] ++ (line b ++ linesAfter more) := by
  simp [linesAfter]

theorem attributes_linesAfter_iff {bindings : List Binding}
    (named : ∀ b ∈ bindings, b.name.all isNameSign = true) :
    attributes (linesAfter bindings) = bindings ↔
      ∀ b ∈ bindings, doubleQuote ∉ b.expression := by
  induction bindings with
  | nil =>
    simp only [List.not_mem_nil, false_implies, implies_true, iff_true]
    decide
  | cons b more ih =>
    obtain ⟨here, later⟩ := List.forall_mem_cons.mp named
    obtain ⟨tail, plain, closing⟩ := closing_eq b
    rw [linesAfter_cons, attributes_append (by decide), List.forall_mem_cons]
    by_cases quoted : doubleQuote ∈ b.expression
    · -- The value ends inside the expression.
      obtain ⟨value, rest, whole, delimited⟩ := List.eq_append_cons_of_mem quoted
      have parts : b.expression ++ Probe.closing b =
          value ++ doubleQuote :: (rest ++ Probe.closing b) := by
        rw [whole, List.append_assoc, List.cons_append]
      rw [attributes_line here delimited parts]
      constructor
      · intro same
        have own := congrArg Binding.expression (List.cons.inj same).1
        dsimp only at own
        rw [← own] at quoted
        exact absurd quoted delimited
      · exact fun free => absurd quoted free.1
    · have parts : b.expression ++ Probe.closing b = b.expression ++ doubleQuote :: tail := by
        rw [closing]
      rw [attributes_line here quoted parts, attributes_append plain, List.cons.injEq, ← ih later]
      simp [quoted]

/-- Read back from its attributes, a probe template gives the bindings it was made of, in their
    order and with their kinds, just where no expression holds a double quote: whatever else stands
    in an expression, tags, line ends and other attributes included. -/
theorem attributes_template_iff {bindings : List Binding}
    (named : ∀ b ∈ bindings, b.name.all isNameSign = true) :
    attributes (template bindings) = bindings ↔
      ∀ b ∈ bindings, doubleQuote ∉ b.expression := by
  rw [template_eq, attributes_append (by decide)]
  exact attributes_linesAfter_iff named

theorem attributes_template_iff_markup :
    let bindings : List Binding :=
      [⟨"x".toList, "'</span>\n  <b [y]=z>' + a[0]".toList, .input⟩, ⟨"save".toList, [], .output⟩,
        ⟨"query".toList, "q".toList, .model⟩]
    (∀ b ∈ bindings, b.name.all isNameSign = true) ∧
      attributes (template bindings) = bindings := by
  intro bindings
  have named : ∀ b ∈ bindings, b.name.all isNameSign = true := by decide
  exact ⟨named, (attributes_template_iff named).mpr (by decide)⟩

/-- A value ends at the first double quote of its expression, and what follows may be read as an
    attribute of its own. -/
theorem template_cuts_values :
    let compared : Binding := ⟨"x".toList, "a == \"b\"".toList, .input⟩
    let doubled : Binding := ⟨"x".toList, "a\" (y)=\"b".toList, .input⟩
    (∀ b ∈ [compared, doubled], b.name.all isNameSign = true) ∧
      attributes (template [compared]) = [⟨"x".toList, "a == ".toList, .input⟩] ∧
      attributes (template [doubled]) =
        [⟨"x".toList, "a".toList, .input⟩, ⟨"y".toList, "b".toList, .output⟩] := by
  decide

end TemplateTypes.Probe
