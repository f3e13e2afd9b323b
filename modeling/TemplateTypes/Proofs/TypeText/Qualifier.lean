import TemplateTypes.Proofs.Text.Search
import TemplateTypes.Proofs.Text.Spacing
import TemplateTypes.TypeText.Qualifier

namespace TemplateTypes.TypeText

open Text

theorem closing_eq (t : Text) :
    (match t with | ')' :: '.' :: rest => some rest | _ => none) = after? [')', '.'] t := by
  split
  · rfl
  · rename_i other
    symm
    by_contra closes
    obtain ⟨rest, found⟩ := Option.ne_none_iff_exists'.mp closes
    exact other rest (after?_eq_some_iff.mp found)

theorem afterClosing?_eq (t : Text) : afterClosing? t = after? [')', '.'] (trimStart t) :=
  closing_eq (trimStart t)

theorem afterBare?_eq (t : Text) : afterBare? t = after? [')', '.'] (t.dropWhile (· != ')')) :=
  closing_eq _

theorem isSuffix_of_closing {t rest : Text} (found : after? [')', '.'] t = some rest) :
    rest <:+ t := by
  rw [after?_eq_some_iff.mp found]
  exact List.suffix_append _ rest

theorem isSuffix_afterClosing? {t rest : Text} (found : afterClosing? t = some rest) :
    rest <:+ t := by
  rw [afterClosing?_eq] at found
  exact (isSuffix_of_closing found).trans (List.dropWhile_suffix isBlank)

theorem isSuffix_afterLiteral? {quote : Char} {t rest : Text}
    (found : afterLiteral? quote t = some rest) : rest <:+ t := by
  cases t with
  | nil => cases found
  | cons c t =>
    obtain ⟨_, found⟩ := Option.ite_none_right_eq_some.mp found
    split at found
    · cases found
    · rename_i _ more ends
      have inside : more <:+ t := (List.suffix_cons _ more).trans (ends ▸ List.dropWhile_suffix _)
      exact ((isSuffix_afterClosing? found).trans inside).trans (List.suffix_cons c t)

theorem isSuffix_afterBare? {t rest : Text} (found : afterBare? t = some rest) : rest <:+ t := by
  rw [afterBare?_eq] at found
  exact (isSuffix_of_closing found).trans (List.dropWhile_suffix _)

theorem afterLiteral?_eq (quote : Char) (t : Text) :
    afterLiteral? quote t = (after? [quote] t).bind fun inside =>
      (after? [quote] (inside.dropWhile (· != quote))).bind afterClosing? := by
  cases t with
  | nil => rfl
  | cons c t =>
    by_cases opens : c = quote
    · simp only [afterLiteral?, opens, beq_self_eq_true, ↓reduceIte, after?, Option.bind_some]
      split
      · rename_i never
        rw [never]
        rfl
      · rename_i d more found
        have ends := List.head?_dropWhile_not (· != quote) t
        rw [found] at ends ⊢
        obtain rfl : d = quote := by simpa using ends
        simp [after?]
    · simp [afterLiteral?, after?, opens, Ne.symm opens]

theorem orElse_eq_some {a : Text} {first second third : Option Text}
    (found : (first <|> second <|> third) = some a) :
    first = some a ∨ second = some a ∨ third = some a := by
  cases first with
  | some b => exact .inl found
  | none =>
    cases second with
    | some b => exact .inr (.inl found)
    | none => exact .inr (.inr found)

theorem isSuffix_afterQualifier? {c : Char} {t rest : Text}
    (found : afterQualifier? (c :: t) = some rest) : rest <:+ t := by
  unfold afterQualifier? at found
  split at found
  · cases found
  · rename_i argument begins
    have inside : argument <:+ t := by
      obtain ⟨_, begins⟩ := Option.ite_none_right_eq_some.mp begins
      rw [after?_eq_some_iff.mp begins]
      exact List.suffix_append _ argument
    have behind : rest <:+ trimStart argument := by
      rcases orElse_eq_some found with found | found | found
      · exact isSuffix_afterLiteral? found
      · exact isSuffix_afterLiteral? found
      · exact isSuffix_afterBare? found
    exact (behind.trans (List.dropWhile_suffix isBlank)).trans inside

theorem withoutQualifiersFrom_append (a t : Text) :
    withoutQualifiersFrom a.length (a ++ t) = withoutQualifiers t := by
  induction a with
  | nil => rfl
  | cons c a ih => exact ih

theorem withoutQualifiers_cons (c : Char) (t : Text) :
    withoutQualifiers (c :: t) =
      match afterQualifier? (c :: t) with
      | some rest => withoutQualifiers rest
      | none => c :: withoutQualifiers t := by
  rw [withoutQualifiers, withoutQualifiersFrom]
  cases found : afterQualifier? (c :: t) with
  | none => rfl
  | some rest =>
    obtain ⟨a, rfl⟩ := isSuffix_afterQualifier? found
    have skipped : (a ++ rest).length - rest.length = a.length := by simp
    simp only [skipped, withoutQualifiersFrom_append]

structure IsRespacing (f : Text → Text) : Prop where
  nil : f [] = []
  solid : ∀ c t, isBlank c = false → f (c :: t) = c :: f t
  blank : ∀ c t, isBlank c = true → ∀ d ∈ (f (c :: t)).head?, isBlank d = true
  start : ∀ t, trimStart (f t) = f (trimStart t)

theorem isRespacing_collapse : IsRespacing collapse where
  nil := rfl
  solid := by
    intro c t solid
    simp [collapse, collapseFrom, solid]
  blank := by
    intro c t blank d first
    obtain rfl : ' ' = d := by simpa [collapse, collapseFrom, blank] using first
    decide
  start := trimStart_collapseFrom false

theorem isRespacing_trimEnd : IsRespacing trimEnd where
  nil := rfl
  solid := by
    intro c t solid
    simp [trimEnd_cons, allBlank_cons, solid]
  blank := by
    intro c t blank d first
    obtain rfl : c = d :=
      Option.some.inj (head?_of_isPrefix (isPrefix_trimEnd (c :: t)) d first)
    exact blank
  start := trimStart_trimEnd

variable {f : Text → Text}

theorem IsRespacing.after? (respaces : IsRespacing f) {start : Text}
    (solid : start.all (!isBlank ·) = true) (t : Text) :
    Text.after? start (f t) = (Text.after? start t).map f := by
  induction start generalizing t with
  | nil => rfl
  | cons s start ih =>
    rw [List.all_cons, Bool.and_eq_true, Bool.not_eq_true'] at solid
    obtain ⟨solidHere, solidRest⟩ := solid
    have rest := ih solidRest
    cases t with
    | nil => rw [respaces.nil]; rfl
    | cons c t =>
      cases blank : isBlank c with
      | false =>
        rw [respaces.solid c t blank]
        simp only [Text.after?]
        by_cases same : s = c
        · simp [same, rest t]
        · simp [same]
      | true =>
        have differs : ∀ d, isBlank d = true → s ≠ d := by
          rintro d blank rfl
          rw [solidHere] at blank
          cases blank
        have elsewhere : Text.after? (s :: start) (f (c :: t)) = none := by
          cases spaced : f (c :: t) with
          | nil => rfl
          | cons d u =>
            have other := differs d (respaces.blank c t blank d (by rw [spaced]; rfl))
            simp [Text.after?, other]
        simp [elsewhere, Text.after?, differs c blank]

theorem dropWhile_ne_trimStart {quote : Char} (solid : isBlank quote = false) (t : Text) :
    (trimStart t).dropWhile (· != quote) = t.dropWhile (· != quote) := by
  induction t with
  | nil => rfl
  | cons c t ih =>
    cases blank : isBlank c with
    | false => simp [trimStart, blank]
    | true =>
      have differs : c ≠ quote := by
        rintro rfl
        rw [solid] at blank
        cases blank
      simpa [trimStart, blank, differs] using ih

theorem IsRespacing.dropWhile_ne (respaces : IsRespacing f) {quote : Char}
    (solid : isBlank quote = false) (t : Text) :
    (f t).dropWhile (· != quote) = f (t.dropWhile (· != quote)) := by
  induction length : t.length using Nat.strongRecOn generalizing t with
  | ind n ih =>
    rw [← dropWhile_ne_trimStart solid, respaces.start, ← dropWhile_ne_trimStart solid t]
    cases starts : trimStart t with
    | nil => rw [respaces.nil, List.dropWhile_nil, respaces.nil]
    | cons c u =>
      have solidHere := head?_dropWhile_blank t c (by rw [← trimStart, starts]; rfl)
      have shorter : u.length < n := by
        have bound := (List.dropWhile_suffix (l := t) isBlank).length_le
        rw [← trimStart, starts, List.length_cons] at bound
        omega
      rw [respaces.solid c u solidHere]
      by_cases same : c = quote
      · simp [same, respaces.solid quote u solid]
      · simpa [same] using ih u.length shorter u rfl

variable (respaces : IsRespacing f)

include respaces

theorem IsRespacing.afterClosing? (t : Text) :
    TypeText.afterClosing? (f t) = (TypeText.afterClosing? t).map f := by
  rw [afterClosing?_eq, afterClosing?_eq, respaces.start, respaces.after? (by decide)]

theorem IsRespacing.afterBare? (t : Text) :
    TypeText.afterBare? (f t) = (TypeText.afterBare? t).map f := by
  rw [afterBare?_eq, afterBare?_eq, respaces.dropWhile_ne (by decide), respaces.after? (by decide)]

theorem IsRespacing.afterLiteral? {quote : Char} (solid : isBlank quote = false) (t : Text) :
    TypeText.afterLiteral? quote (f t) = (TypeText.afterLiteral? quote t).map f := by
  have mark : ∀ u, Text.after? [quote] (f u) = (Text.after? [quote] u).map f :=
    respaces.after? (by simpa using solid)
  rw [afterLiteral?_eq, afterLiteral?_eq, mark]
  cases Text.after? [quote] t with
  | none => rfl
  | some inside =>
    simp only [Option.map_some, Option.bind_some, respaces.dropWhile_ne solid, mark]
    cases Text.after? [quote] (inside.dropWhile (· != quote)) with
    | none => rfl
    | some more => exact respaces.afterClosing? more

theorem IsRespacing.afterQualifier? (t : Text) :
    TypeText.afterQualifier? (f t) = (TypeText.afterQualifier? t).map f := by
  unfold TypeText.afterQualifier?
  rw [respaces.after? (by decide)]
  cases Text.after? "import(".toList t with
  | none => rfl
  | some argument =>
    have double : isBlank doubleQuote = false := by decide
    have single : isBlank singleQuote = false := by decide
    simp only [Option.map_some, respaces.start, respaces.afterBare?,
      respaces.afterLiteral? double, respaces.afterLiteral? single]
    cases TypeText.afterLiteral? doubleQuote (trimStart argument) <;>
      cases TypeText.afterLiteral? singleQuote (trimStart argument) <;> rfl

omit respaces

theorem afterQualifier?_of_blank {c : Char} (blank : isBlank c = true) (t : Text) :
    afterQualifier? (c :: t) = none := by
  have differs : ¬ 'i' = c := by
    rintro rfl
    exact absurd blank (by decide)
  simp [afterQualifier?, after?, differs]

theorem withoutQualifiers_of_blank {c : Char} (blank : isBlank c = true) (t : Text) :
    withoutQualifiers (c :: t) = c :: withoutQualifiers t := by
  rw [withoutQualifiers_cons, afterQualifier?_of_blank blank]

theorem withoutQualifiers_of_allBlank {t : Text} (blank : allBlank t = true) :
    withoutQualifiers t = t := by
  induction t with
  | nil => rfl
  | cons c t ih =>
    rw [allBlank_cons, Bool.and_eq_true] at blank
    rw [withoutQualifiers_of_blank blank.1, ih blank.2]

theorem collapseFrom_withoutQualifiers {outer inner : Bool} (within : inner = true → outer = true)
    (t : Text) : collapseFrom outer (withoutQualifiers (collapseFrom inner t)) =
      collapseFrom outer (withoutQualifiers t) := by
  have space : isBlank ' ' = true := by decide
  induction length : t.length using Nat.strongRecOn generalizing t outer inner with
  | ind n ih =>
    cases t with
    | nil => rfl
    | cons c t =>
      have shorter : t.length < n := by
        rw [← length, List.length_cons]
        omega
      cases blank : isBlank c with
      | true =>
        have rest : collapseFrom true (withoutQualifiers (collapseFrom true t)) =
            collapseFrom true (withoutQualifiers t) := ih t.length shorter (fun _ => rfl) t rfl
        rw [withoutQualifiers_of_blank blank]
        cases inner with
        | true => simp [collapseFrom, blank, within rfl, rest]
        | false =>
          simp only [collapseFrom, blank, ↓reduceIte, Bool.false_eq_true,
            withoutQualifiers_of_blank space, space, rest]
      | false =>
        have found := isRespacing_collapse.afterQualifier? (c :: t)
        have spaced : collapseFrom inner (c :: t) = collapse (c :: t) := by
          simp [collapse, collapseFrom, blank]
        rw [spaced]
        rw [isRespacing_collapse.solid c t blank] at found ⊢
        rw [withoutQualifiers_cons, withoutQualifiers_cons, found]
        cases qualifier : TypeText.afterQualifier? (c :: t) with
        | some rest =>
          have bound := (isSuffix_afterQualifier? qualifier).length_le
          exact ih rest.length (by omega) (by simp) rest rfl
        | none =>
          simp only [Option.map_none, collapseFrom, blank, Bool.false_eq_true, ↓reduceIte]
          exact congrArg (c :: ·) (ih t.length shorter (by simp) t rfl)

theorem trimEnd_withoutQualifiers (t : Text) :
    trimEnd (withoutQualifiers (trimEnd t)) = trimEnd (withoutQualifiers t) := by
  induction length : t.length using Nat.strongRecOn generalizing t with
  | ind n ih =>
    cases all : allBlank t with
    | true =>
      rw [withoutQualifiers_of_allBlank all, trimEnd_eq_nil_iff.mpr all]
      rfl
    | false =>
      cases t with
      | nil => cases all
      | cons c t =>
        have shorter : t.length < n := by
          rw [← length, List.length_cons]
          omega
        have kept : trimEnd (c :: t) = c :: trimEnd t := by simp [trimEnd_cons, all]
        have found := isRespacing_trimEnd.afterQualifier? (c :: t)
        rw [kept] at found ⊢
        rw [withoutQualifiers_cons, withoutQualifiers_cons, found]
        cases qualifier : TypeText.afterQualifier? (c :: t) with
        | some rest =>
          have bound := (isSuffix_afterQualifier? qualifier).length_le
          exact ih rest.length (by omega) rest rfl
        | none =>
          have rest := ih t.length shorter t rfl
          have blanks : allBlank (withoutQualifiers (trimEnd t)) =
              allBlank (withoutQualifiers t) := by
            rw [Bool.eq_iff_iff, ← trimEnd_eq_nil_iff, ← trimEnd_eq_nil_iff, rest]
          show trimEnd (c :: withoutQualifiers (trimEnd t)) = trimEnd (c :: withoutQualifiers t)
          rw [trimEnd_cons, trimEnd_cons, allBlank_cons, allBlank_cons, blanks, rest]

theorem trimStart_withoutQualifiers (t : Text) :
    trimStart (withoutQualifiers (trimStart t)) = trimStart (withoutQualifiers t) := by
  induction t with
  | nil => rfl
  | cons c t ih =>
    cases blank : isBlank c with
    | true =>
      rw [withoutQualifiers_of_blank blank]
      simpa [trimStart, blank] using ih
    | false => simp [trimStart, blank]

theorem SameWords.withoutQualifiers {t u : Text} (same : SameWords t u) :
    SameWords (withoutQualifiers t) (withoutQualifiers u) := by
  have spaced : ∀ t, trim (TypeText.withoutQualifiers (trim t)) =
      trim (TypeText.withoutQualifiers t) := by
    intro t
    calc trim (TypeText.withoutQualifiers (trim t))
      _ = trimStart (trimEnd (TypeText.withoutQualifiers (trimEnd (trimStart t)))) :=
        (trimStart_trimEnd _).symm
      _ = trimEnd (trimStart (TypeText.withoutQualifiers (trimStart t))) := by
        rw [trimEnd_withoutQualifiers, trimStart_trimEnd]
      _ = trim (TypeText.withoutQualifiers t) := by
        rw [trimStart_withoutQualifiers]
        rfl
  have words : ∀ t, SameWords (TypeText.withoutQualifiers t)
      (TypeText.withoutQualifiers (trim (collapse t))) := by
    intro t
    have collapsed : collapse (TypeText.withoutQualifiers (collapse t)) =
        collapse (TypeText.withoutQualifiers t) := collapseFrom_withoutQualifiers id t
    unfold SameWords
    rw [trim_collapse, trim_collapse, spaced, ← trim_collapse, ← trim_collapse]
    exact congrArg trim collapsed.symm
  have step := words t
  rw [same] at step
  exact step.trans (words u).symm

end TemplateTypes.TypeText
