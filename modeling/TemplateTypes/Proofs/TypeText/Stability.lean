import TemplateTypes.Proofs.TypeText.Parts
import Mathlib.Algebra.GroupWithZero.Nat
import Mathlib.Algebra.Order.BigOperators.Group.List
import Mathlib.Algebra.Order.Group.Nat
import Mathlib.Data.List.DropRight
import Mathlib.Data.List.Infix

namespace TemplateTypes.TypeText

open Text

theorem dropTrailingUndefined_isPrefix (members : List Text) :
    dropTrailingUndefined members <+: members := by
  cases members with
  | nil => exact List.prefix_refl []
  | cons first rest => exact List.cons_prefix_cons.mpr ⟨rfl, List.rdropWhile_prefix _ rest⟩

theorem dropTrailingUndefined_idempotent (members : List Text) :
    dropTrailingUndefined (dropTrailingUndefined members) = dropTrailingUndefined members := by
  cases members with
  | nil => rfl
  | cons first rest => exact congrArg (first :: ·) (List.rdropWhile_idempotent _ rest)

theorem canonical_unknown : canonical unknown = unknown := by decide

theorem canonical_of_members {t : Text} {members : List Text} (nonempty : members ≠ [])
    (cut : dropTrailingUndefined (splitTop '|' t) = members) :
    canonical t = if (unionText members).isEmpty then unknown else unionText members := by
  unfold canonical
  rw [cut]
  cases members with
  | nil => exact absurd rfl nonempty
  | cons first more => rfl

theorem canonical_of_no_members {t : Text} (cut : dropTrailingUndefined (splitTop '|' t) = []) :
    canonical t = if t.isEmpty then unknown else t := by
  unfold canonical
  rw [cut]

theorem canonical_canonical (t : Text) : canonical (canonical t) = canonical t := by
  have orUnknown : ∀ u : Text, canonical u = (if u.isEmpty then unknown else u) →
      canonical (if u.isEmpty then unknown else u) = if u.isEmpty then unknown else u := by
    intro u same
    cases u with
    | nil => exact canonical_unknown
    | cons c u => exact same
  cases cut : dropTrailingUndefined (splitTop '|' t) with
  | nil =>
    rw [canonical_of_no_members cut]
    exact orUnknown t (canonical_of_no_members cut)
  | cons first more =>
    have are := (areParts_splitTop isSeparator_bar t).sublist
      (dropTrailingUndefined_isPrefix _).sublist
    rw [cut] at are
    have again : dropTrailingUndefined (splitTop '|' (unionText (first :: more))) =
        first :: more := by
      rw [splitTop_unionText are, ← cut, dropTrailingUndefined_idempotent]
    rw [canonical_of_members (by simp) cut]
    exact orUnknown _ (canonical_of_members (by simp) again)

def solids (t : Text) : Nat := t.countP (!isBlank ·)

theorem solids_le {t u : Text} (part : t.Sublist u) : solids t ≤ solids u := part.countP_le

theorem solids_append (t u : Text) : solids (t ++ u) = solids t + solids u := List.countP_append

theorem solids_cons {c : Char} (solid : isBlank c = false) (t : Text) :
    solids (c :: t) = solids t + 1 :=
  List.countP_cons_of_pos (by simp [solid])

theorem solids_collapseFrom (inRun : Bool) (t : Text) :
    solids (collapseFrom inRun t) = solids t := by
  have space : isBlank ' ' = true := by decide
  fun_induction collapseFrom inRun t with
  | case1 inRun => rfl
  | case2 c rest blank ih => simpa [solids, blank] using ih
  | case3 inRun c rest blank outside ih => simpa [solids, blank, space] using ih
  | case4 inRun c rest solid ih =>
    have solid : isBlank c = false := by simpa using solid
    rw [solids_cons solid, solids_cons solid, ih]

theorem solids_tidy_le (t : Text) : solids (tidy t) ≤ solids t := by
  have inner := solids_le (isInfix_trim (collapse t)).sublist
  have unended := solids_le (isPrefix_dropEndWhile (· == ';') (trim (collapse t))).sublist
  have outer := solids_le (isInfix_trim (dropEndWhile (· == ';') (trim (collapse t)))).sublist
  have collapsed := solids_collapseFrom false t
  rw [← collapse] at collapsed
  rw [tidy]
  omega

theorem solids_tidy_lt {t : Text} (trimmed : Trimmed t) (ended : t.getLast? = some ';') :
    solids (tidy t) < solids t := by
  have last : (trim (collapse t)).getLast? = some ';' := by
    rw [trim_collapse, trimmed.trim_eq, getLast?_collapse trimmed, ended]
  obtain ⟨a, parts⟩ := List.getLast?_eq_some_iff.mp last
  have dropped : dropEndWhile (· == ';') (a ++ [';']) = dropEndWhile (· == ';') a := by
    simp [dropEndWhile]
  have outer := solids_le (isInfix_trim (dropEndWhile (· == ';') a)).sublist
  have unended := solids_le (isPrefix_dropEndWhile (· == ';') a).sublist
  have whole : solids (a ++ [';']) = solids a + 1 := solids_append a [';']
  have inner := solids_le (isInfix_trim (collapse t)).sublist
  have collapsed := solids_collapseFrom false t
  rw [← collapse] at collapsed
  rw [parts] at inner
  rw [tidy, parts, dropped]
  omega

theorem sublist_withoutQualifiersFrom (skip : Nat) (t : Text) :
    (withoutQualifiersFrom skip t).Sublist t := by
  fun_induction withoutQualifiersFrom skip t with
  | case1 skip => exact .slnil
  | case2 skip c rest ih => exact ih.cons c
  | case3 c rest after found ih => exact ih.cons c
  | case4 c rest none ih => exact ih.cons_cons c

theorem solids_withoutQualifiers_le (t : Text) : solids (withoutQualifiers t) ≤ solids t :=
  solids_le (sublist_withoutQualifiersFrom 0 t)

theorem solids_withoutQualifiers_lt {t u : Text} (part : u <:+ t)
    (found : afterQualifier? u ≠ none) : solids (withoutQualifiers t) < solids t := by
  induction t with
  | nil =>
    obtain rfl := List.suffix_nil.mp part
    exact absurd rfl found
  | cons c t ih =>
    rw [withoutQualifiers_cons]
    cases here : afterQualifier? (c :: t) with
    | some rest =>
      have solid : isBlank c = false := by
        by_contra blank
        rw [afterQualifier?_of_blank (by simpa using blank)] at here
        cases here
      have fewer := solids_withoutQualifiers_le rest
      have shorter := solids_le (isSuffix_afterQualifier? here).sublist
      rw [solids_cons solid]
      show solids (withoutQualifiers rest) < solids t + 1
      omega
    | none =>
      rcases List.suffix_cons_iff.mp part with rfl | later
      · exact absurd here found
      · have fewer := ih later
        show solids ([c] ++ withoutQualifiers t) < solids ([c] ++ t)
        rw [solids_append, solids_append]
        omega

theorem solids_pieces (s : Scanner) (t : Text) :
    ((topPiecesFrom '|' s t).map (solids · + 1)).sum = solids t + 1 := by
  fun_induction topPiecesFrom '|' s t with
  | case1 s => rfl
  | case2 s c rest cut ih =>
    have bar := (Scanner.seesTop_of_cuts cut).1
    have solid : isBlank '|' = false := by decide
    rw [List.map_cons, List.sum_cons, ih, bar, solids_cons solid]
    show 0 + 1 + (solids rest + 1) = solids rest + 1 + 1
    omega
  | case3 s c rest cut none ih => exact absurd none (topPiecesFrom_ne_nil '|' _ rest)
  | case4 s c rest cut piece more found ih =>
    rw [found, List.map_cons, List.sum_cons] at ih
    have first := solids_append [c] piece
    have whole := solids_append [c] rest
    rw [List.map_cons, List.sum_cons]
    show solids ([c] ++ piece) + 1 + (more.map (solids · + 1)).sum = solids ([c] ++ rest) + 1
    omega

theorem solids_splitTop_le (t : Text) :
    ((splitTop '|' t).map (solids · + 1)).sum ≤ solids t + 1 := by
  have shown : ((splitTop '|' t).map (solids · + 1)).Sublist
      (((topPiecesFrom '|' .start t).map trim).map (solids · + 1)) :=
    List.filter_sublist.map _
  calc ((splitTop '|' t).map (solids · + 1)).sum
    _ ≤ (((topPiecesFrom '|' .start t).map trim).map (solids · + 1)).sum :=
      shown.sum_le_sum fun _ _ => Nat.zero_le _
    _ ≤ ((topPiecesFrom '|' .start t).map (solids · + 1)).sum := by
      rw [List.map_map]
      apply List.sum_le_sum
      intro piece _
      exact Nat.succ_le_succ (solids_le (isInfix_trim piece).sublist)
    _ = solids t + 1 := solids_pieces .start t

theorem solids_unionText {members : List Text} (nonempty : members ≠ []) :
    solids (unionText members) + 1 = (members.map (solids · + 1)).sum := by
  induction members with
  | nil => exact absurd rfl nonempty
  | cons first more ih =>
    cases more with
    | nil => simp [unionText, join]
    | cons second more =>
      have bar : solids " | ".toList = 1 := by decide
      have rest := ih (by simp)
      rw [List.map_cons, List.sum_cons, ← rest, unionText_cons_cons, solids_append,
        solids_append, bar]
      omega

theorem solids_canonical_le {t : Text} (known : canonical t ≠ unknown) :
    solids (canonical t) ≤ solids t := by
  have orUnknown : ∀ u : Text, (if u.isEmpty then unknown else u) ≠ unknown →
      (if u.isEmpty then unknown else u) = u := by
    intro u known
    cases u with
    | nil => exact absurd rfl known
    | cons c u => rfl
  cases cut : dropTrailingUndefined (splitTop '|' t) with
  | nil =>
    rw [canonical_of_no_members cut] at known ⊢
    rw [orUnknown t known]
  | cons first more =>
    rw [canonical_of_members (by simp) cut] at known ⊢
    rw [orUnknown _ known]
    have kept := (dropTrailingUndefined_isPrefix (splitTop '|' t)).sublist.map (solids · + 1)
    have fewer := kept.sum_le_sum fun _ _ => Nat.zero_le _
    have parts := solids_splitTop_le t
    have union := solids_unionText (List.cons_ne_nil first more)
    rw [cut] at fewer
    omega

structure IsSettled (t : Text) : Prop where
  unqualified : ∀ u, u <:+ t → afterQualifier? u = none
  unended : t.getLast? ≠ some ';'

theorem settled_unknown : IsSettled unknown := by
  constructor
  · intro u part
    have none : ∀ u ∈ unknown.tails, afterQualifier? u = none := by decide
    exact none u ((List.mem_tails u unknown).mpr part)
  · decide

theorem withoutQualifiers_eq_self {t : Text}
    (unqualified : ∀ u, u <:+ t → afterQualifier? u = none) : withoutQualifiers t = t := by
  induction t with
  | nil => rfl
  | cons c t ih =>
    rw [withoutQualifiers_cons, unqualified _ (List.suffix_refl _)]
    exact congrArg (c :: ·) (ih fun u part => unqualified u (part.trans (List.suffix_cons c t)))

theorem IsNormal.tidy_eq {t : Text} (normal : IsNormal t) (unended : t.getLast? ≠ some ';') :
    tidy t = t := by
  rw [tidy_of_getLast? (by rwa [normal.trimmed.trim_eq]), normal.spaced.collapse_eq,
    normal.trimmed.trim_eq]

theorem IsNormal.allBlank_eq {t : Text} (normal : IsNormal t) : allBlank t = false := by
  cases blank : allBlank t with
  | false => rfl
  | true =>
    have none := trim_eq_nil_iff.mpr blank
    rw [normal.trimmed.trim_eq] at none
    exact absurd none normal.nonempty

theorem canonical_normalize (t : Text) : canonical (normalize t) = normalize t := by
  unfold normalize
  split
  · exact canonical_unknown
  · exact canonical_canonical _

theorem settled_of_fixed {t : Text} (normal : IsNormal t) (fixed : normalize t = t) :
    IsSettled t := by
  by_cases known : t = unknown
  · rw [known]
    exact settled_unknown
  have whole : canonical (tidy (withoutQualifiers t)) = t := by
    rwa [normalize, if_neg (by simp [normal.allBlank_eq])] at fixed
  have kept : solids t ≤ solids (tidy (withoutQualifiers t)) := by
    have fewer := solids_canonical_le (t := tidy (withoutQualifiers t)) (by rwa [whole])
    rwa [whole] at fewer
  have unqualified : ∀ u, u <:+ t → afterQualifier? u = none := by
    intro u part
    by_contra found
    have fewer := solids_withoutQualifiers_lt part found
    have tidied := solids_tidy_le (withoutQualifiers t)
    omega
  refine ⟨unqualified, ?_⟩
  intro ended
  rw [withoutQualifiers_eq_self unqualified] at kept
  have fewer := solids_tidy_lt normal.trimmed ended
  omega

theorem IsSettled.normalize_eq {t : Text} (settled : IsSettled t) (normal : IsNormal t)
    (canonicalized : canonical t = t) : normalize t = t := by
  rw [normalize, if_neg (by simp [normal.allBlank_eq]),
    withoutQualifiers_eq_self settled.unqualified, normal.tidy_eq settled.unended, canonicalized]

/-- A second normalization changes the text exactly when the first one left it something to take.
    No text at all is read as the empty one. -/
theorem normalize_normalize_iff (t : Option Text) :
    normalize (normalize (t.getD [])) = normalize (t.getD []) ↔
      IsSettled (normalize (t.getD [])) := by
  have normal := normalize_isNormal (t.getD [])
  constructor
  · exact settled_of_fixed normal
  · intro settled
    exact settled.normalize_eq normal (canonical_normalize _)

theorem normalize_again_differs :
    normalize (normalize "string ; ;".toList) ≠ normalize "string ; ;".toList ∧
      normalize (normalize "A; | undefined".toList) ≠ normalize "A; | undefined".toList ∧
      normalize (normalize "impimport('a').ort('b').X".toList) ≠
        normalize "impimport('a').ort('b').X".toList := by
  decide

end TemplateTypes.TypeText
