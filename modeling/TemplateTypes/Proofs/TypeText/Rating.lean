import TemplateTypes.TypeText.Confidence
import TemplateTypes.Proofs.TypeText.Parts

namespace TemplateTypes

open Text TypeText

namespace Scanner

variable {s : Scanner} {separator target : Char} {next : Option Char} {t : Text}

theorem misses_of_findTopFrom (absent : findTopFrom target s t = none) : s.Misses target t := by
  induction t generalizing s with
  | nil => trivial
  | cons c t ih =>
    rw [findTopFrom] at absent
    split at absent
    · cases absent
    · rename_i here
      exact ⟨by simpa using here, ih (Option.map_eq_none_iff.mp absent)⟩

theorem misses_of_findTop? (absent : findTop? target t 0 = none) : start.Misses target t :=
  misses_of_findTopFrom (Option.map_eq_none_iff.mp absent)

theorem Whole.misses (other : separator ≠ '|') (whole : s.Whole separator next t) :
    s.Misses separator t := by
  induction t generalizing s with
  | nil => trivial
  | cons c t ih =>
    refine ⟨?_, ih whole.2⟩
    have stays := whole.1
    simpa [cuts, other] using stays

theorem Fresh.misses_iff (fresh : s.Fresh t) : s.Misses target t ↔ start.Misses target t := by
  cases t with
  | nil => exact Iff.rfl
  | cons c t =>
    have quoted : s.quote = start.quote := fresh.quote
    simp only [Misses, seesTop, sees, fresh.next_eq, quoted]

end Scanner

theorem trim_ne_nil {c : Char} {t : Text} (member : c ∈ t) (solid : isBlank c = false) :
    trim t ≠ [] := by
  rw [Ne, trim_eq_nil_iff]
  intro blank
  have gap := List.all_eq_true.mp blank c member
  rw [solid] at gap
  cases gap

theorem shown_pieces_ne_nil {separator c : Char} {s : Scanner} {t : Text} (member : c ∈ t)
    (other : c ≠ separator) (solid : isBlank c = false) :
    ((topPiecesFrom separator s t).map trim).filter (!·.isEmpty) ≠ [] := by
  have kept : c ∈ (topPiecesFrom separator s t).flatten := by
    rw [← List.count_pos_iff, count_flatten_pieces other]
    exact List.count_pos_iff.mpr member
  obtain ⟨piece, among, inside⟩ := List.mem_flatten.mp kept
  apply List.ne_nil_of_mem (a := trim piece)
  rw [List.mem_filter]
  exact ⟨List.mem_map_of_mem among, by simpa using trim_ne_nil inside solid⟩

structure SolidEnds (t : Text) : Prop where
  front : ∃ c, t.head? = some c ∧ isBlank c = false ∧ c ≠ '&'
  back : ∃ c, t.getLast? = some c ∧ isBlank c = false ∧ c ≠ '&'

theorem SolidEnds.one_lt_splitTop_iff {t : Text} (ends : SolidEnds t) :
    1 < (splitTop '&' t).length ↔ ¬ Scanner.start.Misses '&' t := by
  rcases topPiecesFrom_cases '&' .start t with whole | ⟨a, rest, rfl, whole, cuts⟩
  · have few : (splitTop '&' t).length ≤ 1 := by
      rw [splitTop, topPiecesFrom_of_whole whole]
      exact List.length_filter_le _ _
    exact iff_of_false (by omega) (not_not_intro (whole.misses (by decide)))
  · apply iff_of_true
    · obtain ⟨c, first, solid, other⟩ := ends.front
      obtain ⟨d, last, visible, differs⟩ := ends.back
      have within : c ∈ a := by
        cases a with
        | nil => exact absurd (Option.some.inj first).symm other
        | cons e a =>
          rw [← Option.some.inj first]
          exact List.mem_cons_self
      have behind : d ∈ rest := by
        rw [List.getLast?_append_cons] at last
        have member := List.mem_of_getLast? last
        exact List.mem_of_ne_of_mem differs member
      have one := List.length_pos_iff.mpr (shown_pieces_ne_nil
        (s := (Scanner.start.run a).next '&') behind differs visible)
      have shown : (trim a).isEmpty = false := by simpa using trim_ne_nil within solid
      rw [splitTop, topPiecesFrom_cut whole cuts, List.map_cons, List.filter_cons,
        if_pos (by rw [shown]; rfl), List.length_cons]
      omega
    · intro misses
      have unseen := (Scanner.misses_append.mp misses).2.1
      rw [(Scanner.seesTop_of_cuts cuts).2] at unseen
      cases unseen

theorem solidEnds_unionText {members : List Text} (ends : ∀ member ∈ members, SolidEnds member)
    (nonempty : members ≠ []) : SolidEnds (unionText members) := by
  induction members with
  | nil => exact absurd rfl nonempty
  | cons first more ih =>
    obtain ⟨here, later⟩ := List.forall_mem_cons.mp ends
    cases more with
    | nil => exact here
    | cons second more =>
      obtain ⟨c, head, front⟩ := here.front
      obtain ⟨d, last, back⟩ := (ih later (by simp)).back
      rw [unionText_cons_cons]
      refine ⟨⟨c, ?_, front⟩, ⟨d, ?_, back⟩⟩
      · rw [List.head?_append, head, Option.some_or]
      · rw [← List.append_assoc, List.getLast?_append, last, Option.some_or]

theorem Scanner.run_bar {s : Scanner} (depth : s.depth = 0) (quote : s.quote = none) :
    s.run " | ".toList = ⟨0, none, some ' '⟩ := by
  have plain : isPlain ' ' = true ∧ isPlain '|' = true := by decide
  change ((s.next ' ').next '|').next ' ' = _
  rw [next_plain quote plain.1, next_plain rfl plain.2, next_plain rfl plain.1, depth]

theorem misses_unionText {members : List Text} (closes : ∀ member ∈ members, Closes member) :
    Scanner.start.Misses '&' (unionText members) ↔
      ∀ member ∈ members, Scanner.start.Misses '&' member := by
  induction members with
  | nil => simp [unionText, join, Scanner.Misses]
  | cons first more ih =>
    obtain ⟨⟨depth, quote⟩, later⟩ := List.forall_mem_cons.mp closes
    cases more with
    | nil => simp [unionText, join]
    | cons second more =>
      have behind := Scanner.run_bar depth quote
      have bar : (Scanner.start.run first).Misses '&' " | ".toList := by
        refine ⟨?_, ?_, ?_, trivial⟩
        all_goals exact Scanner.misses_at (.inr (.inr (by decide)))
      have fresh : Scanner.Fresh ⟨0, none, some ' '⟩ (unionText (second :: more)) :=
        ⟨rfl, rfl, by decide, by simp⟩
      rw [unionText_cons_cons, Scanner.misses_append, Scanner.misses_append, behind,
        fresh.misses_iff, ih later, List.forall_mem_cons (l := second :: more)]
      exact and_congr_right fun _ => and_iff_right bar

/-- A member that can be joined to others: it closes what it opens, no bar stands outside its
    brackets and literals, and no ampersand stands at its ends. -/
structure IsAlternative (t : Text) : Prop where
  visible : t ≠ []
  trimmed : Trimmed t
  closes : Closes t
  noBar : findTop? '|' t 0 = none
  front : t.head? ≠ some '&'
  back : t.getLast? ≠ some '&'

theorem IsAlternative.isPart {t : Text} (is : IsAlternative t) : IsPart '|' t :=
  ⟨is.visible, is.trimmed, (Scanner.misses_of_findTop? is.noBar).whole none⟩

theorem IsAlternative.solidEnds {t : Text} (is : IsAlternative t) : SolidEnds t := by
  have first := List.head?_eq_some_head is.visible
  have last := List.getLast?_eq_some_getLast is.visible
  constructor
  · refine ⟨_, first, is.trimmed.front _ first, fun same => is.front ?_⟩
    rw [first, same]
  · refine ⟨_, last, is.trimmed.back _ last, fun same => is.back ?_⟩
    rw [last, same]

theorem areParts_alternatives {members : List Text}
    (are : ∀ member ∈ members, IsAlternative member) : AreParts '|' members := by
  induction members with
  | nil => exact areParts_nil
  | cons first more ih =>
    obtain ⟨here, later⟩ := List.forall_mem_cons.mp are
    exact (ih later).cons here.isPart here.closes

theorem one_lt_splitTop_unionText {members : List Text}
    (are : ∀ member ∈ members, IsAlternative member) :
    1 < (splitTop '&' (unionText members)).length ↔
      ∃ member ∈ members, 1 < (splitTop '&' member).length := by
  by_cases none : members = []
  · subst none
    decide
  · have ends := solidEnds_unionText (fun member among => (are member among).solidEnds) none
    rw [ends.one_lt_splitTop_iff, misses_unionText fun member among => (are member among).closes]
    simp only [not_forall]
    constructor
    · rintro ⟨member, among, cut⟩
      exact ⟨member, among, (are member among).solidEnds.one_lt_splitTop_iff.mpr cut⟩
    · rintro ⟨member, among, several⟩
      exact ⟨member, among, (are member among).solidEnds.one_lt_splitTop_iff.mp several⟩

def ratingOf : List Text → Confidence
  | [] => .high
  | [member] =>
    if isVague member then .low
    else if (splitTop '&' member).length > 1 then .medium else .high
  | members => if members.all isLiteral then .high else .medium

theorem ratingOf_perm {members others : List Text} (perm : members.Perm others) :
    ratingOf members = ratingOf others := by
  match members, others, perm.length_eq with
  | [], [], _ => rfl
  | [member], [other], _ => rw [List.singleton_perm_singleton.mp perm]
  | first :: second :: more, other :: another :: rest, _ =>
    rw [ratingOf, ratingOf, perm.all_eq]
    all_goals simp

theorem exists_several_filter (members : List Text) :
    (∃ member ∈ members, 1 < (splitTop '&' member).length) ↔
      ∃ member ∈ members.filter (· != "null".toList), 1 < (splitTop '&' member).length := by
  constructor
  · rintro ⟨member, among, several⟩
    refine ⟨member, List.mem_filter.mpr ⟨among, ?_⟩, several⟩
    rw [bne_iff_ne]
    rintro rfl
    exact absurd several (by decide)
  · rintro ⟨member, among, several⟩
    exact ⟨member, (List.mem_filter.mp among).1, several⟩

theorem ratingOf_vague {members : List Text} (are : ∀ member ∈ members, IsAlternative member)
    (vague : isVague (unionText members) = true) :
    ratingOf (members.filter (· != "null".toList)) = .low := by
  have split := splitTop_unionText (areParts_alternatives are)
  have words : unionText members = any ∨ unionText members = unknown := by
    simpa [isVague] using vague
  rcases words with word | word
  all_goals
    rw [word] at split
    rw [← split]
    decide

theorem classify_unionText {members : List Text}
    (are : ∀ member ∈ members, IsAlternative member) :
    classify (unionText members) = ratingOf (members.filter (· != "null".toList)) := by
  by_cases vague : isVague (unionText members) = true
  · rw [classify, if_pos vague, ratingOf_vague are vague]
  · have several := (one_lt_splitTop_unionText are).trans (exists_several_filter members)
    rw [classify, if_neg vague, splitTop_unionText (areParts_alternatives are)]
    cases others : members.filter (· != "null".toList) with
    | nil =>
      have whole : ¬ (splitTop '&' (unionText members)).length > 1 := by
        rw [gt_iff_lt, several, others]
        simp
      dsimp only
      rw [if_neg whole, ratingOf]
    | cons member more =>
      cases more with
      | nil =>
        have same : (splitTop '&' (unionText members)).length > 1 ↔
            (splitTop '&' member).length > 1 := by
          rw [gt_iff_lt, several, others]
          simp
        dsimp only
        rw [ratingOf, if_congr same rfl rfl]
      | cons another more => rfl

/-- The second list is the first one with `null` put in at any places. -/
inductive NullsPutIn : List Text → List Text → Prop
  | nil : NullsPutIn [] []
  | member {member : Text} {members others : List Text} : NullsPutIn members others →
      NullsPutIn (member :: members) (member :: others)
  | null {members others : List Text} : NullsPutIn members others →
      NullsPutIn members ("null".toList :: others)

theorem isAlternative_null : IsAlternative "null".toList :=
  ⟨by decide, trimmed_of_trim (by decide), ⟨by decide, by decide⟩, by decide, by decide, by decide⟩

theorem NullsPutIn.filter_eq {members others : List Text} (put : NullsPutIn members others) :
    others.filter (· != "null".toList) = members.filter (· != "null".toList) := by
  induction put with
  | nil => rfl
  | member _ ih => rw [List.filter_cons, List.filter_cons, ih]
  | null _ ih => rw [List.filter_cons, if_neg (by decide), ih]

theorem NullsPutIn.areAlternatives {members others : List Text} (put : NullsPutIn members others)
    (are : ∀ member ∈ members, IsAlternative member) : ∀ member ∈ others, IsAlternative member := by
  induction put with
  | nil => exact are
  | member _ ih =>
    obtain ⟨here, later⟩ := List.forall_mem_cons.mp are
    exact List.forall_mem_cons.mpr ⟨here, ih later⟩
  | null _ ih => exact List.forall_mem_cons.mpr ⟨isAlternative_null, ih are⟩

/-- A union of members that can be joined is rated by those that are not `null`. Neither their
    order nor `null` put in among them changes that. -/
theorem classify_order_and_null {members : List Text}
    (are : ∀ member ∈ members, IsAlternative member) :
    classify (unionText members) = ratingOf (members.filter (· != "null".toList)) ∧
      (∀ others, others.Perm members →
        classify (unionText others) = classify (unionText members)) ∧
      ∀ others, NullsPutIn members others →
        classify (unionText others) = classify (unionText members) := by
  have whole := classify_unionText are
  refine ⟨whole, ?_, ?_⟩
  · intro others perm
    have alike := classify_unionText fun member among => are member (perm.subset among)
    rw [alike, whole]
    exact ratingOf_perm (perm.filter _)
  · intro others put
    rw [classify_unionText (put.areAlternatives are), whole, put.filter_eq]

/-- The ampersand shows before, behind and between members that are `null`. -/
theorem classify_order_and_null_intersection :
    let both := "A & (B | C)".toList
    let null := "null".toList
    (∀ member ∈ [both, null], IsAlternative member) ∧
      [null, both].Perm [both, null] ∧ NullsPutIn [both, null] [null, both, null, null] ∧
      classify (unionText [null, both]) = .medium ∧
      classify (unionText [null, both, null, null]) = .medium := by
  intro both null
  have closes : Closes both := ⟨by decide, by decide⟩
  have are : ∀ member ∈ [both, null], IsAlternative member := by
    simp only [List.forall_mem_cons]
    exact ⟨⟨by decide, trimmed_of_trim (by decide), closes, by decide, by decide, by decide⟩,
      isAlternative_null, by simp⟩
  have perm : [null, both].Perm [both, null] := .swap both null []
  have put : NullsPutIn [both, null] [null, both, null, null] :=
    .null (.member (.null (.member .nil)))
  obtain ⟨whole, order, nulls⟩ := classify_order_and_null are
  have rated : classify (unionText [both, null]) = .medium := by
    rw [whole]
    decide
  exact ⟨are, perm, put, (order _ perm).trans rated, (nulls _ put).trans rated⟩

end TemplateTypes
