import TemplateTypes.Text.Basic
import Mathlib.Data.List.Chain
import Mathlib.Data.List.TakeWhile

namespace TemplateTypes.Text

/-- Every blank is a space, and no space stands next to another one. -/
structure SingleSpaced (t : Text) : Prop where
  onlySpaces : ∀ c ∈ t, isBlank c = true → c = ' '
  apart : t.IsChain fun c d => ¬ (c = ' ' ∧ d = ' ')

structure Trimmed (t : Text) : Prop where
  front : ∀ c ∈ t.head?, isBlank c = false
  back : ∀ c ∈ t.getLast?, isBlank c = false

theorem head?_dropWhile_blank (t : Text) :
    ∀ c ∈ (t.dropWhile isBlank).head?, isBlank c = false := by
  intro c member
  have first := List.head?_dropWhile_not isBlank t
  rw [Option.mem_def.mp member] at first
  exact first

theorem isPrefix_dropEndWhile (p : Char → Bool) (t : Text) : dropEndWhile p t <+: t := by
  have suffix := List.dropWhile_suffix (l := t.reverse) p
  simpa [dropEndWhile] using List.reverse_prefix.mpr suffix

theorem exists_dropEndWhile (p : Char → Bool) (t : Text) :
    ∃ w, w.all p = true ∧ t = dropEndWhile p t ++ w := by
  refine ⟨(t.reverse.takeWhile p).reverse, ?_, ?_⟩
  · rw [List.all_reverse]
    exact List.all_eq_true.mpr fun c member => List.mem_takeWhile_imp member
  · rw [dropEndWhile, ← List.reverse_append, List.takeWhile_append_dropWhile, List.reverse_reverse]

theorem getLast?_dropEndWhile (p : Char → Bool) (t : Text) :
    ∀ c ∈ (dropEndWhile p t).getLast?, p c = false := by
  intro c last
  rw [dropEndWhile, List.getLast?_reverse] at last
  have stays := List.head?_dropWhile_not p t.reverse
  rw [Option.mem_def.mp last] at stays
  exact stays

theorem isPrefix_trimEnd (t : Text) : trimEnd t <+: t := isPrefix_dropEndWhile isBlank t

theorem isInfix_trim (t : Text) : trim t <:+: t :=
  (isPrefix_trimEnd _).isInfix.trans (List.dropWhile_suffix isBlank).isInfix

theorem head?_of_isPrefix {t u : Text} (starts : t <+: u) : ∀ c ∈ t.head?, c ∈ u.head? := by
  intro c member
  obtain ⟨rest, rfl⟩ := starts
  cases t with
  | nil => cases member
  | cons d t => exact member

theorem trimmed_trim (t : Text) : Trimmed (trim t) := by
  constructor
  · intro c member
    exact head?_dropWhile_blank t c (head?_of_isPrefix (isPrefix_trimEnd _) c member)
  · exact getLast?_dropEndWhile isBlank (trimStart t)

theorem Trimmed.dropWhile_blank {t : Text} (front : ∀ c ∈ t.head?, isBlank c = false) :
    t.dropWhile isBlank = t := by
  cases t with
  | nil => rfl
  | cons c rest => simp [front c rfl]

theorem Trimmed.trim_eq {t : Text} (trimmed : Trimmed t) : trim t = t := by
  have back : ∀ c ∈ t.reverse.head?, isBlank c = false := by
    simpa using trimmed.back
  simp [trim, trimStart, trimEnd, dropEndWhile, Trimmed.dropWhile_blank trimmed.front,
    Trimmed.dropWhile_blank back]

theorem trimmed_of_trim {t : Text} (whole : trim t = t) : Trimmed t := whole ▸ trimmed_trim t

theorem Trimmed.trimEnd_eq {t : Text} (trimmed : Trimmed t) : trimEnd t = t := by
  have whole := trimmed.trim_eq
  rwa [trim, trimStart, Trimmed.dropWhile_blank trimmed.front] at whole

theorem Trimmed.append {t u : Text} (left : Trimmed t) (right : Trimmed u) (leftSome : t ≠ [])
    (rightSome : u ≠ []) (middle : Text) : Trimmed (t ++ (middle ++ u)) := by
  constructor
  · intro c first
    apply left.front
    cases t with
    | nil => exact absurd rfl leftSome
    | cons d t => exact first
  · intro c last
    apply right.back
    rw [← List.append_assoc, List.getLast?_append_of_ne_nil _ rightSome] at last
    exact last

theorem SingleSpaced.of_isInfix {t u : Text} (spaced : SingleSpaced u) (part : t <:+: u) :
    SingleSpaced t :=
  ⟨fun c member => spaced.onlySpaces c (part.subset member), spaced.apart.infix part⟩

theorem SingleSpaced.trim {t : Text} (spaced : SingleSpaced t) : SingleSpaced (trim t) :=
  spaced.of_isInfix (isInfix_trim t)

theorem SingleSpaced.append {t u : Text} (left : SingleSpaced t) (right : SingleSpaced u)
    (gap : ∀ c ∈ t.getLast?, ∀ d ∈ u.head?, ¬ (c = ' ' ∧ d = ' ')) : SingleSpaced (t ++ u) := by
  constructor
  · intro c member
    rcases List.mem_append.mp member with member | member
    · exact left.onlySpaces c member
    · exact right.onlySpaces c member
  · exact List.isChain_append.mpr ⟨left.apart, right.apart, gap⟩

theorem singleSpaced_collapseFrom (inRun : Bool) (t : Text) :
    SingleSpaced (collapseFrom inRun t) ∧
      (inRun = true → ∀ c ∈ (collapseFrom inRun t).head?, isBlank c = false) := by
  fun_induction collapseFrom inRun t with
  | case1 inRun => exact ⟨⟨by simp, List.isChain_nil⟩, by simp⟩
  | case2 c rest blank ih => exact ⟨ih.1, fun _ => ih.2 rfl⟩
  | case3 inRun c rest blank outside ih =>
    refine ⟨⟨?_, ?_⟩, ?_⟩
    · intro d member
      rcases List.mem_cons.mp member with rfl | member
      · exact fun _ => rfl
      · exact ih.1.onlySpaces d member
    · refine List.isChain_cons.mpr ⟨?_, ih.1.apart⟩
      rintro d first ⟨_, rfl⟩
      exact absurd (ih.2 rfl ' ' first) (by decide)
    · intro inside
      exact absurd inside outside
  | case4 inRun c rest solid ih =>
    have solid : isBlank c = false := by simpa using solid
    refine ⟨⟨?_, ?_⟩, ?_⟩
    · intro d member
      rcases List.mem_cons.mp member with rfl | member
      · simp [solid]
      · exact ih.1.onlySpaces d member
    · refine List.isChain_cons.mpr ⟨?_, ih.1.apart⟩
      rintro d _ ⟨rfl, _⟩
      exact absurd solid (by decide)
    · intro _ d first
      obtain rfl : c = d := Option.some.inj first
      exact solid

theorem singleSpaced_collapse (t : Text) : SingleSpaced (collapse t) :=
  (singleSpaced_collapseFrom false t).1

theorem dropEndWhile_cons (p : Char → Bool) (c : Char) (t : Text) :
    dropEndWhile p (c :: t) = if (c :: t).all p then [] else c :: dropEndWhile p t := by
  have rest : t.reverse.dropWhile p = [] ↔ t.all p = true := by
    simp [List.dropWhile_eq_nil_iff]
  rw [dropEndWhile, List.reverse_cons, List.dropWhile_append]
  cases all : t.all p with
  | true =>
    have none := rest.mpr all
    cases stays : p c <;> simp [dropEndWhile, stays, all, none]
  | false =>
    have some : t.reverse.dropWhile p ≠ [] := by simp [rest, all]
    simp [dropEndWhile, all, some]

theorem dropEndWhile_append_cons {p : Char → Bool} {c : Char} (stays : p c = false) (a t : Text) :
    dropEndWhile p (a ++ c :: t) = a ++ c :: dropEndWhile p t := by
  induction a with
  | nil => simp [dropEndWhile_cons, stays]
  | cons d a ih => simp [dropEndWhile_cons, stays, ih]

theorem dropEndWhile_of_getLast? {p : Char → Bool} {t : Text}
    (last : ∀ c ∈ t.getLast?, p c = false) : dropEndWhile p t = t := by
  rcases List.eq_nil_or_concat' t with rfl | ⟨a, c, rfl⟩
  · rfl
  · rw [dropEndWhile_append_cons (last c (by simp))]
    rfl

theorem trimEnd_append {a : Text} (solid : ∀ c ∈ a.getLast?, isBlank c = false) (t : Text) :
    trimEnd (a ++ t) = a ++ trimEnd t := by
  rcases List.eq_nil_or_concat' a with rfl | ⟨a, c, rfl⟩
  · rfl
  · rw [List.append_assoc, List.append_assoc]
    exact dropEndWhile_append_cons (solid c (by simp)) a t

theorem dropEndWhile_append_of_all {p : Char → Bool} {w : Text} (all : w.all p = true) (t : Text) :
    dropEndWhile p (t ++ w) = dropEndWhile p t := by
  have behind : ∀ c ∈ w.reverse, p c = true := by simpa using all
  rw [dropEndWhile, List.reverse_append, List.dropWhile_append_of_pos behind]
  rfl

theorem dropEndWhile_of_all {p : Char → Bool} {t : Text} (all : t.all p = true) :
    dropEndWhile p t = [] := by
  cases t with
  | nil => rfl
  | cons c t => rw [dropEndWhile_cons, if_pos all]

theorem allBlank_cons (c : Char) (t : Text) : allBlank (c :: t) = (isBlank c && allBlank t) := rfl

theorem trimEnd_cons (c : Char) (t : Text) :
    trimEnd (c :: t) = if allBlank (c :: t) then [] else c :: trimEnd t :=
  dropEndWhile_cons isBlank c t

theorem allBlank_collapseFrom (inRun : Bool) (t : Text) :
    allBlank (collapseFrom inRun t) = allBlank t := by
  have space : isBlank ' ' = true := by decide
  fun_induction collapseFrom inRun t with
  | case1 inRun => rfl
  | case2 c rest blank ih => simpa [allBlank, blank] using ih
  | case3 inRun c rest blank outside ih => simpa [allBlank, blank, space] using ih
  | case4 inRun c rest solid ih => simp [allBlank, solid]

theorem collapseFrom_append_cons {c : Char} (solid : isBlank c = false) (inRun : Bool)
    (a t : Text) : collapseFrom inRun (a ++ c :: t) = collapseFrom inRun a ++ c :: collapse t := by
  induction a generalizing inRun with
  | nil => simp [collapseFrom, collapse, solid]
  | cons d a ih =>
    cases blank : isBlank d <;> cases inRun <;> simp [collapseFrom, blank, ih]

theorem trimStart_collapseFrom (inRun : Bool) (t : Text) :
    trimStart (collapseFrom inRun t) = collapse (trimStart t) := by
  have space : isBlank ' ' = true := by decide
  unfold trimStart
  fun_induction collapseFrom inRun t with
  | case1 inRun => rfl
  | case2 c rest blank ih => rw [ih, List.dropWhile_cons_of_pos blank]
  | case3 inRun c rest blank outside ih =>
    rw [List.dropWhile_cons_of_pos space, ih, List.dropWhile_cons_of_pos blank]
  | case4 inRun c rest solid ih =>
    rw [List.dropWhile_cons_of_neg solid, List.dropWhile_cons_of_neg solid, collapse, collapseFrom,
      if_neg solid]

theorem trimEnd_collapseFrom (inRun : Bool) (t : Text) :
    trimEnd (collapseFrom inRun t) = collapseFrom inRun (trimEnd t) := by
  have space : isBlank ' ' = true := by decide
  have blanks : ∀ {t : Text}, allBlank t = true → trimEnd t = [] := dropEndWhile_of_all
  fun_induction collapseFrom inRun t with
  | case1 inRun => rfl
  | case2 c rest blank ih =>
    rw [ih, trimEnd_cons]
    cases all : allBlank rest with
    | true => simp [allBlank_cons, blank, all, blanks all]
    | false => simp [allBlank_cons, blank, all, collapseFrom]
  | case3 inRun c rest blank outside ih =>
    rw [trimEnd_cons, trimEnd_cons, allBlank_cons, allBlank_cons, allBlank_collapseFrom, ih]
    cases all : allBlank rest <;> simp [blank, space, outside, collapseFrom]
  | case4 inRun c rest solid ih =>
    simp [trimEnd_cons, allBlank_cons, solid, collapseFrom, ih]

theorem trim_collapse (t : Text) : trim (collapse t) = collapse (trim t) := by
  rw [trim, collapse, trimStart_collapseFrom, collapse, trimEnd_collapseFrom]
  rfl

theorem getLast?_collapse {t : Text} (trimmed : Trimmed t) :
    (collapse t).getLast? = t.getLast? := by
  rcases List.eq_nil_or_concat' t with rfl | ⟨a, c, rfl⟩
  · rfl
  · rw [collapse, collapseFrom_append_cons (trimmed.back c (by simp))]
    simp [collapse, collapseFrom]

theorem collapse_append_of_solid {a : Text} (solid : ∀ c ∈ a, isBlank c = false) (t : Text) :
    collapse (a ++ t) = a ++ collapse t := by
  induction a with
  | nil => rfl
  | cons c a ih =>
    have rest := ih fun d member => solid d (List.mem_cons_of_mem c member)
    simpa [collapse, collapseFrom, solid c List.mem_cons_self] using rest

theorem collapse_of_solid {t : Text} (solid : ∀ c ∈ t, isBlank c = false) : collapse t = t := by
  have whole := collapse_append_of_solid solid []
  rwa [List.append_nil, show collapse [] = [] from rfl, List.append_nil] at whole

theorem mem_collapseFrom {c : Char} {inRun : Bool} {t : Text} (member : c ∈ collapseFrom inRun t) :
    c = ' ' ∨ c ∈ t := by
  fun_induction collapseFrom inRun t with
  | case1 inRun => cases member
  | case2 d rest blank ih => exact (ih member).imp_right (List.mem_cons_of_mem d)
  | case3 inRun d rest blank outside ih =>
    rcases List.mem_cons.mp member with rfl | member
    · exact .inl rfl
    · exact (ih member).imp_right (List.mem_cons_of_mem d)
  | case4 inRun d rest solid ih =>
    rcases List.mem_cons.mp member with rfl | member
    · exact .inr List.mem_cons_self
    · exact (ih member).imp_right (List.mem_cons_of_mem d)

theorem collapse_eq_iff_of_solid {t word : Text} (solid : ∀ c ∈ word, isBlank c = false) :
    collapse t = word ↔ t = word := by
  constructor
  · intro same
    induction t generalizing word with
    | nil => exact same
    | cons c t ih =>
      cases blank : isBlank c with
      | true =>
        have space : collapse (c :: t) = ' ' :: collapseFrom true t := by
          simp [collapse, collapseFrom, blank]
        rw [space] at same
        exact absurd (solid ' ' (same ▸ List.mem_cons_self)) (by decide)
      | false =>
        have kept : collapse (c :: t) = c :: collapse t := by simp [collapse, collapseFrom, blank]
        rw [kept] at same
        subst same
        rw [← ih (fun d member => solid d (List.mem_cons_of_mem c member)) rfl]
  · rintro rfl
    exact collapse_of_solid solid

theorem collapse_collapseFrom (inRun : Bool) (t : Text) :
    collapseFrom inRun (collapseFrom inRun t) = collapseFrom inRun t := by
  have space : isBlank ' ' = true := by decide
  fun_induction collapseFrom inRun t with
  | case1 inRun => rfl
  | case2 c rest blank ih => exact ih
  | case3 inRun c rest blank outside ih => rw [collapseFrom, if_pos space, if_neg outside, ih]
  | case4 inRun c rest solid ih => rw [collapseFrom, if_neg solid, ih]

theorem SingleSpaced.collapseFrom_eq {inRun : Bool} {t : Text} (spaced : SingleSpaced t)
    (behind : inRun = true → ∀ c ∈ t.head?, isBlank c = false) : collapseFrom inRun t = t := by
  induction t generalizing inRun with
  | nil => rfl
  | cons c t ih =>
    have later : SingleSpaced t := spaced.of_isInfix (List.suffix_cons c t).isInfix
    cases blank : isBlank c with
    | false => rw [collapseFrom, if_neg (by simp [blank]), ih later (by simp)]
    | true =>
      have outside : inRun = false := by
        cases inRun with
        | false => rfl
        | true =>
          rw [behind rfl c rfl] at blank
          cases blank
      have space : c = ' ' := spaced.onlySpaces c List.mem_cons_self blank
      have solid : ∀ d ∈ t.head?, isBlank d = false := by
        intro d first
        by_contra again
        have second := later.onlySpaces d (List.mem_of_mem_head? first) (by simpa using again)
        exact (List.isChain_cons.mp spaced.apart).1 d first ⟨space, second⟩
      rw [collapseFrom, if_pos blank, outside, if_neg (by simp), ih later fun _ => solid, space]

theorem SingleSpaced.collapse_eq {t : Text} (spaced : SingleSpaced t) : collapse t = t :=
  spaced.collapseFrom_eq (by simp)

theorem trim_trim (t : Text) : trim (trim t) = trim t := (trimmed_trim t).trim_eq

theorem trimEnd_eq_nil_iff {t : Text} : trimEnd t = [] ↔ allBlank t = true := by
  cases t with
  | nil => simp [trimEnd, dropEndWhile, allBlank]
  | cons c t => simp [trimEnd_cons]

theorem allBlank_trimStart (t : Text) : allBlank (trimStart t) = allBlank t := by
  induction t with
  | nil => rfl
  | cons c t ih => cases blank : isBlank c <;> simp_all [trimStart, allBlank_cons]

theorem trimStart_append {t : Text} (visible : allBlank t = false) (u : Text) :
    trimStart (t ++ u) = trimStart t ++ u := by
  have some : t.dropWhile isBlank ≠ [] := by
    intro none
    rw [← allBlank_trimStart, trimStart, none] at visible
    cases visible
  rw [trimStart, List.dropWhile_append, if_neg (by simpa using some)]
  rfl

theorem trimStart_append_of_solid {u : Text} (front : ∀ c ∈ u.head?, isBlank c = false)
    (t : Text) : trimStart (t ++ u) = trimStart t ++ u := by
  cases blank : allBlank t with
  | false => exact trimStart_append blank u
  | true =>
    have all := List.all_eq_true.mp blank
    have none : trimStart t = [] := List.dropWhile_eq_nil_iff.mpr all
    rw [none, trimStart, List.dropWhile_append_of_pos all, Trimmed.dropWhile_blank front,
      List.nil_append]

theorem trim_eq_nil_iff {t : Text} : trim t = [] ↔ allBlank t = true := by
  rw [trim, trimEnd_eq_nil_iff, allBlank_trimStart]

theorem trimStart_trimEnd (t : Text) : trimStart (trimEnd t) = trimEnd (trimStart t) := by
  induction t with
  | nil => rfl
  | cons c t ih =>
    rw [trimEnd_cons]
    cases all : allBlank (c :: t) with
    | true =>
      have none : trimEnd (trimStart (c :: t)) = [] :=
        trimEnd_eq_nil_iff.mpr ((allBlank_trimStart (c :: t)).trans all)
      rw [none]
      rfl
    | false =>
      cases blank : isBlank c with
      | true => simpa [trimStart, blank] using ih
      | false => simp [trimStart, trimEnd_cons, blank, all]

theorem exists_blanks_trim (t : Text) :
    ∃ a b, allBlank a = true ∧ allBlank b = true ∧ t = a ++ (trim t ++ b) := by
  have before : allBlank (t.takeWhile isBlank) = true :=
    List.all_eq_true.mpr fun c member => List.mem_takeWhile_imp member
  obtain ⟨b, behind, back⟩ := exists_dropEndWhile isBlank (trimStart t)
  refine ⟨t.takeWhile isBlank, b, before, behind, ?_⟩
  rw [trim, trimEnd, ← back, trimStart, List.takeWhile_append_dropWhile]

theorem exists_blanks_trimEnd (t : Text) : ∃ a, allBlank a = true ∧ trimEnd t = a ++ trim t := by
  refine ⟨(trimEnd t).takeWhile isBlank, ?_, ?_⟩
  · exact List.all_eq_true.mpr fun c member => List.mem_takeWhile_imp member
  · rw [trim, ← trimStart_trimEnd, trimStart, List.takeWhile_append_dropWhile]

theorem getLast?_trim {t : Text} (back : ∀ c ∈ t.getLast?, isBlank c = false) :
    (trim t).getLast? = t.getLast? := by
  obtain ⟨a, blank, parts⟩ := exists_blanks_trimEnd t
  have whole : trimEnd t = t := dropEndWhile_of_getLast? back
  rw [whole] at parts
  by_cases none : trim t = []
  · have empty : t = [] := whole.symm.trans (trimEnd_eq_nil_iff.mpr (trim_eq_nil_iff.mp none))
    rw [none, empty]
  · rw [← List.getLast?_append_of_ne_nil a none, ← parts]

/-- A character that stays keeps what is behind it from the front and what precedes it from the
    end. -/
theorem trim_append_cons {c : Char} (solid : isBlank c = false) (a t : Text) :
    trim (a ++ c :: t) = trimStart a ++ c :: trimEnd t := by
  rw [trim, trimStart_append_of_solid (by rintro _ ⟨⟩; exact solid), trimEnd,
    dropEndWhile_append_cons solid]
  rfl

theorem trim_trimEnd (t : Text) : trim (trimEnd t) = trim t := by
  rw [trim, trimStart_trimEnd]
  exact (trimmed_trim t).trimEnd_eq

theorem count_blanks {c : Char} (solid : isBlank c = false) {a : Text} (blank : allBlank a = true) :
    a.count c = 0 := by
  refine List.count_eq_zero.mpr fun inside => ?_
  have own := List.all_eq_true.mp blank c inside
  rw [solid] at own
  cases own

theorem count_trim {c : Char} (solid : isBlank c = false) (t : Text) :
    (trim t).count c = t.count c := by
  obtain ⟨a, b, before, behind, text⟩ := exists_blanks_trim t
  conv_rhs =>
    rw [text, List.count_append, List.count_append, count_blanks solid before,
      count_blanks solid behind]
  omega

theorem trim_append_of_solid {a t : Text} (blank : allBlank a = true)
    (front : ∀ c ∈ t.head?, isBlank c = false) : trim (a ++ t) = trimEnd t := by
  have leading : trimStart (a ++ t) = trimStart t :=
    List.dropWhile_append_of_pos (List.all_eq_true.mp blank)
  rw [trim, leading, trimStart, Trimmed.dropWhile_blank front]

theorem trim_blanks {a b : Text} (before : allBlank a = true) (behind : allBlank b = true)
    (t : Text) : trim (a ++ (t ++ b)) = trim t := by
  have start : trimStart (a ++ (t ++ b)) = trimStart (t ++ b) :=
    List.dropWhile_append_of_pos (List.all_eq_true.mp before)
  have ending : trimEnd (t ++ b) = trimEnd t := dropEndWhile_append_of_all behind t
  calc trim (a ++ (t ++ b))
    _ = trimEnd (trimStart (t ++ b)) := by rw [trim, start]
    _ = trimStart (trimEnd t) := by rw [← trimStart_trimEnd, ending]
    _ = trim t := trimStart_trimEnd t

def SameWords (t u : Text) : Prop := trim (collapse t) = trim (collapse u)

theorem SameWords.symm {t u : Text} (same : SameWords t u) : SameWords u t := Eq.symm same

theorem SameWords.trans {t u v : Text} (left : SameWords t u) (right : SameWords u v) :
    SameWords t v := Eq.trans left right

theorem sameWords_collapse (t : Text) : SameWords (collapse t) t :=
  congrArg trim (collapse_collapseFrom false t)

theorem sameWords_trim (t : Text) : SameWords (trim t) t := by
  rw [SameWords, trim_collapse, trim_collapse, trim_trim]

theorem SameWords.allBlank_eq {t u : Text} (same : SameWords t u) : allBlank t = allBlank u := by
  have ends : ∀ t, allBlank t = true ↔ trim (collapse t) = [] := by
    intro t
    rw [trim_eq_nil_iff, collapse, allBlank_collapseFrom]
  rw [Bool.eq_iff_iff, ends, ends, same]

theorem join_cons (separator first : Text) (rest : List Text) :
    join separator (first :: rest) = first ++ rest.flatMap (separator ++ ·) := by
  induction rest generalizing first with
  | nil => simp [join]
  | cons second rest ih => simp [join, ih]

theorem join_append (separator a b : Text) (more : List Text) :
    join separator ((a ++ b) :: more) = a ++ join separator (b :: more) := by
  cases more <;> simp [join]

theorem mem_join_of_mem {separator part : Text} {parts : List Text} {c : Char}
    (member : part ∈ parts) (inside : c ∈ part) : c ∈ join separator parts := by
  obtain ⟨first, rest, rfl⟩ := List.exists_cons_of_ne_nil (List.ne_nil_of_mem member)
  rw [join_cons]
  rcases List.mem_cons.mp member with rfl | member
  · exact List.mem_append_left _ inside
  · exact List.mem_append_right _ (List.mem_flatMap.mpr ⟨part, member, by simp [inside]⟩)

theorem mem_of_mem_join {separator : Text} {parts : List Text} {c : Char}
    (inside : c ∈ join separator parts) : c ∈ separator ∨ ∃ part ∈ parts, c ∈ part := by
  cases parts with
  | nil => cases inside
  | cons first rest =>
    rw [join_cons] at inside
    rcases List.mem_append.mp inside with own | later
    · exact .inr ⟨first, List.mem_cons_self, own⟩
    · obtain ⟨part, member, own⟩ := List.mem_flatMap.mp later
      rcases List.mem_append.mp own with between | own
      · exact .inl between
      · exact .inr ⟨part, List.mem_cons_of_mem first member, own⟩

end TemplateTypes.Text
