import TemplateTypes.Proofs.TypeText.Parts

namespace TemplateTypes.Text

inductive Respaced : Text → Text → Prop
  | nil : Respaced [] []
  | same {c : Char} {t u : Text} : isBlank c = false → Respaced t u → Respaced (c :: t) (c :: u)
  | run {a b t u : Text} : a ≠ [] → b ≠ [] → allBlank a = true → allBlank b = true →
      Respaced t u → Respaced (a ++ t) (b ++ u)

theorem collapseFrom_run {a : Text} (some : a ≠ []) (blank : allBlank a = true) (inRun : Bool)
    (t : Text) : collapseFrom inRun (a ++ t) = collapseFrom inRun (' ' :: t) := by
  have space : isBlank ' ' = true := by decide
  induction a generalizing inRun with
  | nil => exact absurd rfl some
  | cons c a ih =>
    rw [allBlank_cons, Bool.and_eq_true] at blank
    cases a with
    | nil => simp [collapseFrom, blank.1, space]
    | cons d a =>
      have rest := ih (by simp) blank.2 true
      rw [List.cons_append, collapseFrom, if_pos blank.1, rest]
      simp [collapseFrom, space]

theorem Respaced.collapseFrom_eq {t u : Text} (respaced : Respaced t u) (inRun : Bool) :
    collapseFrom inRun t = collapseFrom inRun u := by
  have space : isBlank ' ' = true := by decide
  induction respaced generalizing inRun with
  | nil => rfl
  | same solid _ ih => rw [collapseFrom_cons solid, collapseFrom_cons solid, collapse, ih]; rfl
  | run someA someB blankA blankB _ ih =>
    rw [collapseFrom_run someA blankA, collapseFrom_run someB blankB, collapseFrom, if_pos space,
      collapseFrom, if_pos space, ih]

end TemplateTypes.Text

namespace TemplateTypes

open Text TypeText

namespace Scanner

def Rested (s : Scanner) : Prop := ∀ c ∈ s.last, isBlank c = true

/-- All that comes is read alike: the last characters are the same or tell nothing. -/
structure Alike (s u : Scanner) : Prop where
  depth : s.depth = u.depth
  quote : s.quote = u.quote
  last : s.last = u.last ∨ s.Rested ∧ u.Rested

theorem alike_refl (s : Scanner) : s.Alike s := ⟨rfl, rfl, .inl rfl⟩

variable {s u : Scanner} {c separator : Char}

theorem Alike.last_eq (alike : s.Alike u) (solid : isBlank c = false) :
    (s.last == some c) = (u.last == some c) := by
  have other : ∀ {s : Scanner}, s.Rested → (s.last == some c) = false := by
    intro s rested
    apply beq_false_of_ne
    intro last
    rw [rested c last] at solid
    cases solid
  rcases alike.last with same | ⟨left, right⟩
  · rw [same]
  · rw [other left, other right]

theorem Alike.next (alike : s.Alike u) (c : Char) : (s.next c).Alike (u.next c) := by
  have backslash := alike.last_eq (c := '\\') (by decide)
  have equals := alike.last_eq (c := '=') (by decide)
  have same : s.next c = u.next c := by
    simp only [Scanner.next, alike.depth, alike.quote, equals, bne, backslash]
  rw [same]
  exact alike_refl _

theorem Alike.sees_eq (alike : s.Alike u) (c : Char) : s.sees c = u.sees c := by
  rw [sees, sees, alike.quote]

theorem Alike.seesTop_eq (alike : s.Alike u) (c : Char) : s.seesTop c = u.seesTop c := by
  rw [seesTop, seesTop, alike.sees_eq, (alike.next c).depth]

theorem Alike.cuts_eq (alike : s.Alike u) {t v : Text}
    (followed : (t.head? == some '|') = (v.head? == some '|')) :
    s.cuts separator c t = u.cuts separator c v := by
  rw [cuts, cuts, alike.seesTop_eq, followed, alike.last_eq (by decide)]

theorem Proper.alike_blank {b : Char} (proper : s.Proper) (alike : s.Alike u)
    (blank : isBlank c = true) (other : isBlank b = true) : (s.next c).Alike (u.next b) := by
  have right : u.Proper := by
    intro quote opened
    exact proper quote (alike.quote ▸ opened)
  rw [proper.next_blank blank, right.next_blank other]
  refine ⟨alike.depth, alike.quote, .inr ⟨?_, ?_⟩⟩
  · rintro _ ⟨⟩
    exact blank
  · rintro _ ⟨⟩
    exact other

theorem Proper.alike_run (proper : s.Proper) (alike : s.Alike u) (blank : isBlank c = true)
    (rested : u.Rested) : (s.next c).Alike u := by
  rw [proper.next_blank blank]
  refine ⟨alike.depth, alike.quote, .inr ⟨?_, rested⟩⟩
  rintro _ ⟨⟩
  exact blank

theorem rested_space (u : Scanner) : (u.next ' ').Rested := by
  intro c last
  rw [next_last] at last
  obtain rfl := Option.some.inj last
  decide

end Scanner

variable {separator : Char} {s u : Scanner}

theorem head?_collapse_bar (t : Text) :
    ((collapse t).head? == some '|') = (t.head? == some '|') := by
  cases t with
  | nil => rfl
  | cons c t =>
    cases blank : isBlank c with
    | false => rw [collapse, collapseFrom_cons blank, List.head?_cons, List.head?_cons]
    | true =>
      have other : c ≠ '|' := ne_of_isBlank blank (by decide)
      simp [collapse, collapseFrom, blank, other]

theorem topPiecesFrom_of_stays {c : Char} {t piece : Text} {more : List Text}
    (stays : s.cuts separator c t = false)
    (pieces : topPiecesFrom separator (s.next c) t = piece :: more) :
    topPiecesFrom separator s (c :: t) = (c :: piece) :: more := by
  rw [topPiecesFrom, if_neg (by simp [stays]), pieces]

theorem Scanner.cuts_blank {c : Char} (solid : isBlank separator = false)
    (blank : isBlank c = true) (t : Text) : s.cuts separator c t = false := by
  simp [cuts, ne_of_isBlank blank solid]

theorem topPiecesFrom_collapseFrom (solid : isBlank separator = false) (proper : s.Proper)
    (alike : s.Alike u) {inRun : Bool} (within : inRun = true → u.Rested) {t first : Text}
    {more : List Text} (pieces : topPiecesFrom separator s t = first :: more) :
    topPiecesFrom separator u (collapseFrom inRun t) =
      collapseFrom inRun first :: more.map collapse := by
  induction t generalizing s u inRun first more with
  | nil =>
    cases pieces
    rfl
  | cons c t ih =>
    obtain ⟨piece, others, rest⟩ :=
      List.exists_cons_of_ne_nil (topPiecesFrom_ne_nil separator (s.next c) t)
    have next := proper.next c
    cases blank : isBlank c with
    | true =>
      rw [topPiecesFrom_of_stays (Scanner.cuts_blank solid blank t) rest] at pieces
      cases pieces
      cases inRun with
      | true =>
        have behind := ih next (proper.alike_run alike blank (within rfl)) within rest
        simpa [collapseFrom, blank] using behind
      | false =>
        have space : isBlank ' ' = true := by decide
        have behind := ih next (proper.alike_blank alike blank space)
          (fun (_ : true = true) => Scanner.rested_space u) rest
        simp only [collapseFrom, blank, if_true, Bool.false_eq_true, if_false]
        exact topPiecesFrom_of_stays (Scanner.cuts_blank solid space _) behind
    | false =>
      have outside : false = true → (u.next c).Rested := by simp
      have behind := ih next (alike.next c) outside rest
      have same : s.cuts separator c t = u.cuts separator c (collapse t) :=
        alike.cuts_eq (head?_collapse_bar t).symm
      rw [collapseFrom_cons blank]
      cases cut : s.cuts separator c t with
      | true =>
        rw [topPiecesFrom, if_pos cut, rest] at pieces
        cases pieces
        rw [topPiecesFrom, if_pos (same.symm.trans cut)]
        exact congrArg ([] :: ·) behind
      | false =>
        rw [topPiecesFrom_of_stays cut rest] at pieces
        cases pieces
        rw [collapseFrom_cons blank]
        exact topPiecesFrom_of_stays (same.symm.trans cut) behind

/-- What is not found in a text is not found in it once it is collapsed, and what follows is read
    alike. -/
theorem misses_collapseFrom {target : Char} (solid : isBlank target = false) {s u : Scanner}
    (proper : s.Proper) (alike : s.Alike u) {inRun : Bool} (within : inRun = true → u.Rested)
    {t : Text} (misses : s.Misses target t) :
    u.Misses target (collapseFrom inRun t) ∧ (s.run t).Alike (u.run (collapseFrom inRun t)) := by
  induction t generalizing s u inRun with
  | nil => exact ⟨trivial, alike⟩
  | cons c t ih =>
    have next := proper.next c
    cases blank : isBlank c with
    | true =>
      cases inRun with
      | true =>
        have behind := ih next (proper.alike_run alike blank (within rfl)) within misses.2
        simpa [collapseFrom, blank, Scanner.run_cons] using behind
      | false =>
        have space : isBlank ' ' = true := by decide
        have rested := fun (_ : true = true) => Scanner.rested_space u
        obtain ⟨later, ends⟩ := ih next (proper.alike_blank alike blank space) rested misses.2
        simp only [collapseFrom, blank, if_true, Bool.false_eq_true, if_false]
        exact ⟨⟨by simp [ne_of_isBlank space solid], later⟩, ends⟩
    | false =>
      have outside : false = true → (u.next c).Rested := by simp
      obtain ⟨later, ends⟩ := ih next (alike.next c) outside misses.2
      rw [collapseFrom_cons blank]
      exact ⟨⟨by rw [← alike.seesTop_eq]; exact misses.1, later⟩, ends⟩

theorem topPiecesFrom_collapse (solid : isBlank separator = false) (t : Text) :
    topPiecesFrom separator .start (collapse t) =
      (topPiecesFrom separator .start t).map collapse := by
  obtain ⟨first, more, pieces⟩ :=
    List.exists_cons_of_ne_nil (topPiecesFrom_ne_nil separator .start t)
  have outside : false = true → Scanner.start.Rested := by simp
  rw [pieces]
  exact topPiecesFrom_collapseFrom solid Scanner.proper_start (Scanner.alike_refl .start) outside
    pieces

theorem Scanner.cuts_append {w : Text} (free : separator ∉ w) (c : Char) (t : Text) :
    s.cuts separator c (t ++ w) = s.cuts separator c t := by
  cases t with
  | cons d t => exact cuts_congr rfl c
  | nil =>
    by_cases bar : separator = '|'
    · have other : (w.head? == some '|') = false := by
        apply beq_false_of_ne
        intro first
        exact free (bar ▸ List.mem_of_mem_head? first)
      simp [cuts, other]
    · simp [cuts, beq_false_of_ne bar]

theorem eq_of_topPiecesFrom_singleton {t piece : Text}
    (alone : topPiecesFrom separator s t = [piece]) : piece = t := by
  rcases topPiecesFrom_cases separator s t with whole | ⟨a, rest, rfl, whole, cuts⟩
  · rw [topPiecesFrom_of_whole whole] at alone
    exact (List.singleton_inj.mp alone).symm
  · rw [topPiecesFrom_cut whole cuts] at alone
    exact absurd (List.cons.inj alone).2 (topPiecesFrom_ne_nil separator _ rest)

theorem topPiecesFrom_append {w : Text} (free : separator ∉ w) (s : Scanner) (t : Text) :
    ∃ front last, last <:+ t ∧ topPiecesFrom separator s t = front ++ [last] ∧
      topPiecesFrom separator s (t ++ w) = front ++ [last ++ w] := by
  induction t generalizing s with
  | nil =>
    have whole : s.Whole separator none w := Scanner.whole_of_not_mem free
    exact ⟨[], [], List.suffix_refl [], rfl, topPiecesFrom_of_whole whole⟩
  | cons c t ih =>
    obtain ⟨front, last, within, pieces, extended⟩ := ih (s.next c)
    have same := Scanner.cuts_append (s := s) free c t
    have later := within.trans (List.suffix_cons c t)
    rw [List.cons_append]
    cases cut : s.cuts separator c t with
    | true =>
      rw [topPiecesFrom, if_pos cut, pieces, topPiecesFrom, if_pos (same.trans cut), extended]
      exact ⟨[] :: front, last, later, rfl, rfl⟩
    | false =>
      cases front with
      | nil =>
        obtain rfl := eq_of_topPiecesFrom_singleton pieces
        rw [topPiecesFrom_of_stays cut pieces, topPiecesFrom_of_stays (same.trans cut) extended]
        exact ⟨[], c :: last, List.suffix_refl _, rfl, rfl⟩
      | cons piece front =>
        rw [topPiecesFrom_of_stays cut pieces, topPiecesFrom_of_stays (same.trans cut) extended]
        exact ⟨(c :: piece) :: front, last, later, rfl, rfl⟩

theorem map_trim_topPiecesFrom_trim (solid : isBlank separator = false) (t : Text) :
    (topPiecesFrom separator .start (trim t)).map trim =
      (topPiecesFrom separator .start t).map trim := by
  obtain ⟨a, b, before, behind, parts⟩ := exists_blanks_trim t
  have free : ∀ {gap : Text}, allBlank gap = true → separator ∉ gap :=
    fun blank => Scanner.not_mem_blanks solid blank
  have fresh : (Scanner.start.run a).Fresh (trim t ++ b) :=
    (Scanner.fresh_start _).behind before
  have alone : ∀ piece : Text,
      trim (a ++ piece) = trim piece ∧ trim (piece ++ b) = trim piece := by
    intro piece
    have first := trim_blanks before (b := []) rfl piece
    have second := trim_blanks (a := []) rfl behind piece
    exact ⟨by simpa using first, by simpa using second⟩
  obtain ⟨front, last, _, pieces, extended⟩ :=
    topPiecesFrom_append (free behind) .start (trim t)
  obtain ⟨piece, more, rest, whole⟩ := topPiecesFrom_whole (t := trim t ++ b)
    (Scanner.whole_of_not_mem (s := .start) (free before))
  rw [fresh.topPiecesFrom_eq, extended] at rest
  rw [← parts] at whole
  calc (topPiecesFrom separator .start (trim t)).map trim
    _ = (front ++ [last ++ b]).map trim := by
      rw [pieces, List.map_append, List.map_append, List.map_singleton, List.map_singleton,
        (alone last).2]
    _ = (topPiecesFrom separator .start t).map trim := by
      rw [rest, whole, List.map_cons, List.map_cons, (alone piece).1]

theorem topPiecesFrom_append_cut (separates : IsSeparator separator)
    {t rest : Text} (cuts : (s.run t).cuts separator separator rest = true) :
    topPiecesFrom separator s (t ++ separator :: rest) =
      topPiecesFrom separator s t ++ topPiecesFrom separator ((s.run t).next separator) rest := by
  induction length : t.length using Nat.strongRecOn generalizing s t with
  | ind n ih =>
    rcases topPiecesFrom_cases separator s t with whole | ⟨a, more, rfl, whole, first⟩
    · rw [topPiecesFrom_of_whole whole, topPiecesFrom_cut (whole.followed (by simp)) cuts]
      rfl
    · have shorter : more.length < n := by
        rw [← length, List.length_append, List.length_cons]
        omega
      rw [Scanner.run_append, Scanner.run_cons] at cuts ⊢
      -- No bar stands beside the first one, also when nothing is left between the two.
      have still : (s.run a).cuts separator separator (more ++ separator :: rest) = true := by
        obtain ⟨outside, apart⟩ := (Scanner.cuts_iff separates).mp first
        refine (Scanner.cuts_iff separates).mpr ⟨outside, fun bar => ⟨(apart bar).1, ?_⟩⟩
        cases more with
        | cons c more => exact (apart bar).2
        | nil =>
          have before := (((Scanner.cuts_iff separates).mp cuts).2 bar).1
          rw [Scanner.run, List.foldl_nil, Scanner.next_last, bar] at before
          exact absurd rfl before
      rw [List.append_assoc, List.cons_append, topPiecesFrom_cut whole still,
        topPiecesFrom_cut whole first, ih more.length shorter cuts rfl, List.cons_append]

theorem splitTop_trim (solid : isBlank separator = false) (t : Text) :
    splitTop separator (trim t) = splitTop separator t := by
  rw [splitTop, splitTop, map_trim_topPiecesFrom_trim solid]

theorem trim_dropSemicolons {last w : Text} (semicolons : w.all (· == ';') = true)
    (ended : ∀ c ∈ last.getLast?, c ≠ ';')
    (solid : w = [] → ∀ c ∈ last.getLast?, isBlank c = false) :
    trim (dropEndWhile (· == ';') (trim (last ++ w))) = trim last := by
  have visible : ∀ c ∈ w, isBlank c = false := by
    intro c member
    have semicolon : c = ';' := by simpa using List.all_eq_true.mp semicolons c member
    rw [semicolon]
    decide
  have within : ∀ c ∈ (trimStart last).getLast?, c ∈ last.getLast? := by
    intro c own
    obtain ⟨before, text⟩ := List.dropWhile_suffix (l := last) isBlank
    rw [← text]
    exact List.mem_getLast?_append_of_mem_getLast? own
  have back : trimEnd (trimStart last ++ w) = trimStart last ++ w := by
    apply dropEndWhile_of_getLast?
    intro c own
    cases w with
    | nil =>
      rw [List.append_nil] at own
      exact solid rfl c (within c own)
    | cons d w =>
      rw [List.getLast?_append_of_ne_nil _ (by simp)] at own
      exact visible c (List.mem_of_mem_getLast? own)
  have front : trimStart (last ++ w) = trimStart last ++ w :=
    trimStart_append_of_solid (fun c first => visible c (List.mem_of_mem_head? first)) last
  have whole : trim (last ++ w) = trimStart last ++ w := by rw [trim, front, back]
  have kept : dropEndWhile (· == ';') (trimStart last) = trimStart last :=
    dropEndWhile_of_getLast? fun c own => by simpa using ended c (within c own)
  rw [whole, dropEndWhile_append_of_all semicolons, kept, trim, trim]
  exact congrArg trimEnd (Trimmed.dropWhile_blank (head?_dropWhile_blank last))

theorem splitTop_tidy (solid : isBlank separator = false) (other : separator ≠ ';') {t last : Text}
    {front : List Text} (pieces : topPiecesFrom separator .start t = front ++ [last]) :
    splitTop separator (tidy t) =
      (front.map (trim ∘ collapse) ++ [tidy last]).filter (!·.isEmpty) := by
  obtain ⟨w, semicolons, text⟩ := exists_dropEndWhile (· == ';') (trim (collapse t))
  have free : separator ∉ w :=
    fun member => other (by simpa using List.all_eq_true.mp semicolons separator member)
  obtain ⟨before, piece, within, kept, whole⟩ :=
    topPiecesFrom_append free .start (dropEndWhile (· == ';') (trim (collapse t)))
  rw [← text] at whole
  have same : before.map trim ++ [trim (piece ++ w)] =
      front.map (trim ∘ collapse) ++ [trim (collapse last)] := by
    have trimmed := map_trim_topPiecesFrom_trim solid (collapse t)
    rw [whole, topPiecesFrom_collapse solid, pieces] at trimmed
    simpa using trimmed
  obtain ⟨rest, final⟩ := List.append_inj' same rfl
  have final : trim (piece ++ w) = trim (collapse last) := by simpa using final
  have ends : ∀ c ∈ piece.getLast?, c ∈ (dropEndWhile (· == ';') (trim (collapse t))).getLast? := by
    obtain ⟨before, cut⟩ := within
    rw [← cut]
    exact fun c last => List.mem_getLast?_append_of_mem_getLast? last
  have tidied : trim piece = tidy last := by
    rw [tidy, ← final]
    apply (trim_dropSemicolons semicolons ?_ ?_).symm
    · intro c own
      simpa using getLast?_dropEndWhile _ _ c (ends c own)
    · rintro rfl c own
      rw [List.append_nil] at text
      have back := ends c own
      rw [← text] at back
      exact (trimmed_trim _).back c back
  rw [splitTop, tidy, map_trim_topPiecesFrom_trim solid, kept, List.map_append, rest,
    List.map_singleton, tidied]

end TemplateTypes
