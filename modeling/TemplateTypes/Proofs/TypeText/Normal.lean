import TemplateTypes.Proofs.TypeText.Brackets
import TemplateTypes.Proofs.TypeText.Qualifier
import TemplateTypes.TypeText.Normal

namespace TemplateTypes.TypeText

open Text

structure IsNormal (t : Text) : Prop where
  nonempty : t ≠ []
  trimmed : Trimmed t
  spaced : SingleSpaced t

theorem singleSpaced_tidy (t : Text) : SingleSpaced (tidy t) := by
  apply SingleSpaced.trim
  apply SingleSpaced.of_isInfix (singleSpaced_collapse t).trim
  exact (isPrefix_dropEndWhile _ _).isInfix

theorem trimmed_tidy (t : Text) : Trimmed (tidy t) := trimmed_trim _

theorem tidy_of_getLast? {t : Text} (unended : (trim t).getLast? ≠ some ';') :
    tidy t = trim (collapse t) := by
  have last : ∀ c ∈ (trim (collapse t)).getLast?, (c == ';') = false := by
    rw [trim_collapse, getLast?_collapse (trimmed_trim _)]
    intro c last
    have other : c ≠ ';' := by
      rintro rfl
      exact unended last
    simpa using other
  rw [tidy, dropEndWhile_of_getLast? last, trim_trim]

theorem isNormal_of_mem_splitTop {separator : Char} {t part : Text} (spaced : SingleSpaced t)
    (member : part ∈ splitTop separator t) : IsNormal part := by
  obtain ⟨nonempty, trimmed, within⟩ := mem_splitTop member
  exact ⟨nonempty, trimmed, spaced.of_isInfix within⟩

theorem IsNormal.union {t u : Text} (left : IsNormal t) (right : IsNormal u) :
    IsNormal (t ++ (" | ".toList ++ u)) := by
  have solid : isBlank '|' = false := by decide
  have bar : SingleSpaced " | ".toList := ⟨by simp [solid], by decide⟩
  refine ⟨by simp [left.nonempty], ?_, ?_⟩
  · exact left.trimmed.append right.trimmed left.nonempty right.nonempty _
  · apply left.spaced.append (bar.append right.spaced ?_)
    · rintro c last d _ ⟨rfl, _⟩
      exact absurd (left.trimmed.back ' ' last) (by decide)
    · rintro c _ d first ⟨_, rfl⟩
      exact absurd (right.trimmed.front ' ' first) (by decide)

theorem unionText_cons_cons (first second : Text) (more : List Text) :
    unionText (first :: second :: more) =
      first ++ (" | ".toList ++ unionText (second :: more)) := by
  simp only [unionText, join, List.append_assoc]

theorem isNormal_unionText {members : List Text} (some : members ≠ [])
    (normal : ∀ member ∈ members, IsNormal member) : IsNormal (unionText members) := by
  induction members with
  | nil => exact absurd rfl some
  | cons first more ih =>
    have firstNormal := normal first List.mem_cons_self
    cases more with
    | nil => exact firstNormal
    | cons second more =>
      have rest := ih (by simp) fun m member => normal m (List.mem_cons_of_mem first member)
      rw [unionText_cons_cons]
      exact firstNormal.union rest

theorem dropTrailingUndefined_subset (members : List Text) :
    dropTrailingUndefined members ⊆ members := by
  intro m member
  cases members with
  | nil => exact member
  | cons first rest =>
    rcases List.mem_cons.mp member with rfl | member
    · exact List.mem_cons_self
    · have kept := List.dropWhile_subset _ (List.mem_reverse.mp member)
      exact List.mem_cons_of_mem first (List.mem_reverse.mp kept)

theorem isNormal_word {t : Text} (nonempty : t ≠ []) (solid : (t.all fun c => !isBlank c) = true) :
    IsNormal t := by
  have solid : ∀ c ∈ t, isBlank c = false := by simpa using solid
  refine ⟨nonempty, ⟨?_, ?_⟩, ⟨?_, ?_⟩⟩
  · exact fun c first => solid c (List.mem_of_mem_head? first)
  · exact fun c last => solid c (List.mem_of_mem_getLast? last)
  · intro c member blank
    rw [solid c member] at blank
    cases blank
  · apply List.Pairwise.isChain
    apply List.pairwise_of_forall_mem_list
    rintro c member _ _ ⟨rfl, _⟩
    exact absurd (solid ' ' member) (by decide)

theorem isNormal_unknown : IsNormal unknown := isNormal_word (by decide) (by decide)

theorem isNormal_orUnknown {t : Text} (normal : t ≠ [] → IsNormal t) :
    IsNormal (if t.isEmpty then unknown else t) := by
  cases t with
  | nil => exact isNormal_unknown
  | cons c rest => exact normal (by simp)

theorem isNormal_canonical {t : Text} (trimmed : Trimmed t) (spaced : SingleSpaced t) :
    IsNormal (canonical t) := by
  unfold canonical
  dsimp only
  apply isNormal_orUnknown
  split
  · exact fun nonempty => ⟨nonempty, trimmed, spaced⟩
  · rename_i members some
    intro _
    apply isNormal_unionText some
    intro member kept
    exact isNormal_of_mem_splitTop spaced (dropTrailingUndefined_subset _ kept)

theorem normalize_isNormal (t : Text) : IsNormal (normalize t) := by
  unfold normalize
  split
  · exact isNormal_unknown
  · exact isNormal_canonical (trimmed_trim _) (singleSpaced_tidy _)

theorem tidy_congr {t u : Text} (same : SameWords t u) : tidy t = tidy u := by
  rw [tidy, same, ← tidy]

theorem normalize_congr {t u : Text} (same : SameWords t u) : normalize t = normalize u := by
  rw [normalize, normalize, same.allBlank_eq, tidy_congr (SameWords.withoutQualifiers same)]

end TemplateTypes.TypeText
