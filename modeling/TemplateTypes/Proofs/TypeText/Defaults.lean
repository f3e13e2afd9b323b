import TemplateTypes.Proofs.TypeText.Brackets
import TemplateTypes.Proofs.TypeText.Signature

namespace TemplateTypes

open Text TypeText

/-- An arrow stands outside brackets and literals, as in the type of a function. -/
def ShowsArrow (t : Text) : Prop :=
  ∃ head result, Balanced head ∧ t = head ++ '=' :: '>' :: result

/-- Where no equals sign stands outside brackets by itself, there is no arrow either or a first
    one. -/
theorem Nested.arrow_cases {top : Char → Bool} {t : Text} (nested : Nested top t)
    (noEquals : top '=' = false) :
    Nested (fun c => top c && c != '>') t ∨
      ∃ head result, Nested (fun c => top c && c != '>') head ∧
        t = head ++ '=' :: '>' :: result := by
  induction nested with
  | nil => exact .inl .nil
  | @plain top c t plain admitted _ ih =>
    have here : (top c && c != '>') = true := by
      have other : c ≠ '>' := by
        rintro rfl
        cases plain
      simp [admitted, other]
    rcases ih noEquals with free | ⟨head, result, before, rfl⟩
    · exact .inl (.plain plain here free)
    · exact .inr ⟨c :: head, result, .plain plain here before, rfl⟩
  | equals admitted _ _ _ => exact absurd admitted (by simp [noEquals])
  | @arrow top t _ _ _ => exact .inr ⟨[], t, .nil, rfl⟩
  | @group top opener closer inner t pair balanced _ _ ih =>
    rcases ih noEquals with free | ⟨head, result, before, rfl⟩
    · exact .inl (.group pair balanced free)
    · exact .inr ⟨_, result, .group pair balanced before, by simp⟩
  | @literal top quote inner t isQuote quoted _ ih =>
    rcases ih noEquals with free | ⟨head, result, before, rfl⟩
    · exact .inl (.literal isQuote quoted free)
    · exact .inr ⟨_, result, .literal isQuote quoted before, by simp⟩

theorem not_showsArrow {top : Char → Bool} {t : Text} (nested : Nested top t)
    (noEquals : top '=' = false) (noArrow : top '>' = false) : ¬ ShowsArrow t := by
  rintro ⟨head, result, balanced, rfl⟩
  have misses := nested.misses_equals noEquals noArrow (s := .start) rfl
  have unseen := (Scanner.misses_append.mp misses).2.1
  rw [balanced.seesTop_equals] at unseen
  cases unseen

theorem splitTop_append {separator : Char} {a : Text} (misses : Scanner.start.Misses separator a)
    (visible : allBlank a = false) (t : Text) :
    ∃ piece more, piece <+: t ∧ splitTop separator (a ++ t) = trim (a ++ piece) :: more := by
  obtain ⟨piece, more, rest, pieces⟩ := topPiecesFrom_whole (t := t) (misses.whole _)
  have begins := (isInfix_topPiecesFrom separator (Scanner.start.run a) t).1 piece (by rw [rest]; rfl)
  have shown : trim (a ++ piece) ≠ [] := by
    rw [Ne, trim_eq_nil_iff, allBlank, List.all_append, ← allBlank, visible]
    simp
  refine ⟨piece, (more.map trim).filter (!·.isEmpty), begins, ?_⟩
  simp [splitTop, pieces, shown]

namespace Signature

def typedParameter (name type : Text) : Text := name ++ ':' :: ' ' :: type

def withDefault (parameter default : Text) : Text := parameter ++ ' ' :: '=' :: ' ' :: default

def methodText (parameters result : Text) : Text := '(' :: (parameters ++ ')' :: ':' :: ' ' :: result)

theorem withoutDefault_cut {top : Char → Bool} {t : Text} (nested : Nested top t)
    (noEquals : top '=' = false) (noArrow : top '>' = false) (rest : Text) :
    withoutDefault (t ++ '=' :: rest) =
      if rest.head? = some '>' then t ++ '=' :: rest else t := by
  have misses := nested.misses_equals noEquals noArrow (s := .start) rfl
  have start : Scanner.at (t ++ '=' :: rest) 0 = .start := rfl
  have found : findTop? '=' (t ++ '=' :: rest) 0 = some t.length := by
    rw [findTop?, start, List.drop_zero, findTopFrom_append misses, findTopFrom,
      if_pos (by simp [nested.seesTop_equals])]
    simp
  have next : (t ++ '=' :: rest)[t.length + 1]? = rest.head? := by
    rw [List.getElem?_append_right (by omega), List.head?_eq_getElem?]
    simp
  simp only [withoutDefault, found, next, List.take_left, beq_iff_eq]

variable {name type default : Text}

theorem methodType_parameter (named : Nested (fun c => c != ',' && c != ':') name) {front : Text}
    (shown : Nested (· != ',') front) {behind : Text} (balanced : Balanced behind)
    (result : Text) :
    ∃ piece, piece <+: behind ∧
      methodType (methodText (name ++ ':' :: (front ++ behind)) result) =
        ⟨trim (withoutDefault (trimEnd (front ++ piece))), endsWith (trim name) ['?']⟩ := by
  have colon : isBlank ':' = false := by decide
  have plain : Nested (· != ',') name := named.mono (by simp +contextual)
  have outside : Nested (· != ':') (trimStart name) := (named.mono (by simp +contextual)).trimStart
  have head : Nested (· != ',') (name ++ ':' :: front) :=
    plain.append (.plain (by decide) (by decide) shown)
  have misses := head.misses ',' (s := .start) rfl (.inr (by decide))
  have visible : allBlank (name ++ ':' :: front) = false := by
    rw [allBlank, List.all_append, List.all_cons, colon, Bool.false_and, Bool.and_false]
  have whole : Balanced (name ++ ':' :: (front ++ behind)) := by
    have all := (head.mono fun _ _ => rfl).append balanced
    rwa [List.append_assoc] at all
  obtain ⟨piece, more, begins, parts⟩ := splitTop_append misses visible behind
  rw [List.append_assoc, List.append_assoc, List.cons_append, List.cons_append,
    trim_append_cons colon] at parts
  refine ⟨piece, begins, ?_⟩
  rw [methodText, (methodType_parens whole _).1 _ _ parts, parameterType_header outside]
  rfl

theorem trim_space (t : Text) : trim (' ' :: t) = trim t :=
  (congrArg trim (by simp)).trans (trim_blanks (a := [' ']) (b := []) rfl rfl t)

theorem trim_withoutDefault (typed : Nested (fun c => c != ',' && c != '=') type) (shown : Text) :
    (¬ ShowsArrow type →
        trim (withoutDefault (trimEnd (' ' :: withDefault type shown))) = trim type) ∧
      (ShowsArrow type →
        trim (withoutDefault (trimEnd (' ' :: withDefault type shown))) =
          trim (withDefault type shown)) := by
  have space : ∀ {top : Char → Bool} {t : Text}, top ' ' = true → Nested top t →
      Nested top (' ' :: t) := fun admitted nested => .plain (by decide) admitted nested
  rcases typed.arrow_cases (by decide) with free | ⟨head, rest, before, parts⟩
  · have none : ¬ ShowsArrow type := not_showsArrow free (by decide) (by decide)
    have text : trimEnd (' ' :: withDefault type shown) =
        ' ' :: (type ++ [' ']) ++ '=' :: trimEnd (' ' :: shown) := by
      have kept := dropEndWhile_append_cons (p := isBlank) (c := '=') (by decide)
        (' ' :: (type ++ [' '])) (' ' :: shown)
      simpa [withDefault, trimEnd] using kept
    have next : (trimEnd (' ' :: shown)).head? ≠ some '>' := by
      rw [trimEnd_space, spaceBefore]
      split <;> simp
    have spaced : Nested (fun c => c != ',' && c != '=' && c != '>') (' ' :: (type ++ [' '])) :=
      space (by decide) (free.append (space (by decide) .nil))
    refine ⟨fun _ => ?_, fun arrow => absurd arrow none⟩
    rw [text, withoutDefault_cut spaced (by decide) (by decide), if_neg next]
    exact trim_blanks (a := [' ']) (b := [' ']) rfl rfl type
  · have arrow : ShowsArrow type := ⟨head, rest, before.mono fun _ _ => rfl, parts⟩
    have text : trimEnd (' ' :: withDefault type shown) =
        ' ' :: head ++ '=' :: '>' :: trimEnd (withDefault rest shown) := by
      have kept := dropEndWhile_append_cons (p := isBlank) (c := '>') (by decide)
        (' ' :: (head ++ ['='])) (withDefault rest shown)
      simpa [parts, withDefault, trimEnd] using kept
    refine ⟨fun none => absurd arrow none, fun _ => ?_⟩
    have whole := withoutDefault_cut (space (by decide) before) (by decide) (by decide)
      ('>' :: trimEnd (withDefault rest shown))
    rw [List.head?_cons, if_pos rfl, ← text] at whole
    rw [whole, trim_trimEnd, trim_space]

theorem methodType_typed (named : Nested (fun c => c != ',' && c != ':') name)
    (typed : Nested (fun c => c != ',' && c != '=') type) (result : Text) :
    methodType (methodText (typedParameter name type) result) =
      ⟨trim type, endsWith (trim name) ['?']⟩ := by
  have spaced : Nested (fun c => c != ',' && c != '=') (' ' :: type) :=
    .plain (by decide) (by decide) typed
  have shown : Nested (· != ',') (' ' :: type) := spaced.mono (by simp +contextual)
  obtain ⟨piece, begins, read⟩ := methodType_parameter named shown .nil result
  rw [List.prefix_nil.mp begins, List.append_nil,
    withoutDefault_of_nested (spaced.trimEnd (by decide)) (by decide), trim_trimEnd,
    trim_space] at read
  exact read

theorem methodType_withDefault (named : Nested (fun c => c != ',' && c != ':') name)
    (typed : Nested (fun c => c != ',' && c != '=') type) (balanced : Balanced default)
    (result : Text) :
    ∃ shown, shown <+: default ∧
      methodType (methodText (withDefault (typedParameter name type) default) result) =
        ⟨trim (withoutDefault (trimEnd (' ' :: withDefault type shown))),
          endsWith (trim name) ['?']⟩ := by
  have equals : Nested (· != ',') [' ', '=', ' '] :=
    .plain (by decide) (by decide) (.equals (by decide) (by simp)
      (.plain (by decide) (by decide) .nil))
  have front : Nested (· != ',') (' ' :: (type ++ [' ', '=', ' '])) :=
    .plain (by decide) (by decide) ((typed.mono (by simp +contextual)).append equals)
  obtain ⟨piece, begins, read⟩ := methodType_parameter named front balanced result
  refine ⟨piece, begins, ?_⟩
  simpa [withDefault, typedParameter] using read

/-- The type of a first parameter is read as it is declared, and with a default value behind it
    exactly when the type shows no arrow. Behind an arrow the default value, up to the comma that
    ends the parameter, is read as part of the type. -/
theorem methodType_default_iff (named : Nested (fun c => c != ',' && c != ':') name)
    (typed : Nested (fun c => c != ',' && c != '=') type) (balanced : Balanced default)
    (result : Text) :
    let plain := methodType (methodText (typedParameter name type) result)
    let filled := methodType (methodText (withDefault (typedParameter name type) default) result)
    plain.type = trim type ∧ (filled.type = trim type ↔ ¬ ShowsArrow type) ∧
      (filled = plain ↔ ¬ ShowsArrow type) ∧
      (ShowsArrow type → ∃ shown, shown <+: default ∧ filled.type = trim (withDefault type shown)) := by
  intro plain filled
  have read : plain = ⟨trim type, endsWith (trim name) ['?']⟩ := methodType_typed named typed result
  obtain ⟨shown, begins, readFilled⟩ := methodType_withDefault named typed balanced result
  obtain ⟨cut, kept⟩ := trim_withoutDefault typed shown
  have more : trim (withDefault type shown) ≠ trim type := by
    intro same
    have solid : isBlank '=' = false := by decide
    have equals := congrArg (List.count '=') same
    rw [count_trim solid, count_trim solid, withDefault, List.count_append] at equals
    simp at equals
  have typeIff : filled.type = trim type ↔ ¬ ShowsArrow type := by
    rw [show filled = _ from readFilled]
    constructor
    · intro same arrow
      exact more ((kept arrow).symm.trans same)
    · exact cut
  refine ⟨by rw [read], typeIff, ?_, fun arrow => ⟨shown, begins, ?_⟩⟩
  · rw [← typeIff, read, show filled = _ from readFilled]
    simp
  · rw [show filled = _ from readFilled]
    exact kept arrow

/-- An arrow within type arguments, and a default value with another parameter behind it. -/
theorem methodType_default_iff_map :
    let type := "Map<string, () => void>".toList
    let filled := "(box: Map<string, () => void> = new Map(), n: number = 2): R".toList
    Nested (fun c => c != ',' && c != ':') "box".toList ∧
      Nested (fun c => c != ',' && c != '=') type ∧
      Balanced "new Map(), n: number = 2".toList ∧ ¬ ShowsArrow type ∧
      (methodType filled).type = type := by
  intro type filled
  have named : Nested (fun c => c != ',' && c != ':') "box".toList := nested_of_plain (by decide)
  have inner : Balanced "string, () => void".toList :=
    have front : Balanced "string, ".toList := nested_of_plain (by decide)
    have parens : ('(', ')') ∈ brackets := by decide
    have void : Balanced " void".toList := nested_of_plain (by decide)
    front.append (.group parens .nil (.plain (by decide) rfl (.arrow rfl void)))
  have shape : Nested (fun c => c != ',' && c != '=' && c != '>') type :=
    have angles : ('<', '>') ∈ brackets := by decide
    (nested_of_plain (t := "Map".toList) (by decide)).append (.group angles inner .nil)
  have typed : Nested (fun c => c != ',' && c != '=') type := shape.mono (by simp +contextual)
  have balanced : Balanced "new Map(), n: number = 2".toList :=
    have front : Balanced "new Map".toList := nested_of_plain (by decide)
    have parens : ('(', ')') ∈ brackets := by decide
    have between : Balanced ", n: number ".toList := nested_of_plain (by decide)
    have two : Balanced " 2".toList := nested_of_plain (by decide)
    front.append (.group parens .nil (between.append (.equals rfl (by decide) two)))
  have noArrow : ¬ ShowsArrow type := not_showsArrow shape (by decide) (by decide)
  have read := methodType_default_iff named typed balanced "R".toList
  exact ⟨named, typed, balanced, noArrow, read.2.1.mpr noArrow⟩

/-- The arrow of a function type hides the default value behind it. -/
theorem methodType_keeps_default :
    Nested (fun c => c != ',' && c != ':') "cb".toList ∧
      Nested (fun c => c != ',' && c != '=') "() => void".toList ∧ Balanced "noop".toList ∧
      (methodType "(cb: () => void): R".toList).type = "() => void".toList ∧
      (methodType "(cb: () => void = noop): R".toList).type = "() => void = noop".toList ∧
      (methodType "(cb: () => void = noop): R".toList).type ≠ trim "() => void".toList ∧
      declared "f(cb: () => void = noop): R".toList = ⟨"() => void = noop".toList, false⟩ := by
  have parens : ('(', ')') ∈ brackets := by decide
  have void : Nested (fun c => c != ',' && c != '=') " void".toList := nested_of_plain (by decide)
  have typed : Nested (fun c => c != ',' && c != '=') "() => void".toList :=
    .group parens .nil (.plain (by decide) (by decide) (.arrow (by decide) void))
  exact ⟨nested_of_plain (by decide), typed, nested_of_plain (by decide), by decide, by decide,
    by decide, by decide⟩

end Signature

end TemplateTypes
