import TemplateTypes.Proofs.TypeText.Stability

namespace TemplateTypes.TypeText

open Text

/-- From the end of `members` only `undefined` has been taken away, as long as one member remained,
    and nothing else. -/
structure EndsShortened (members kept : List Text) : Prop where
  dropped : ∃ n, members = kept ++ List.replicate n "undefined".toList
  remains : members ≠ [] → kept ≠ []
  ended : 1 < kept.length → kept.getLast? ≠ some "undefined".toList

theorem endsShortened_dropTrailingUndefined (members : List Text) :
    EndsShortened members (dropTrailingUndefined members) := by
  cases members with
  | nil => exact ⟨⟨0, rfl⟩, id, by simp [dropTrailingUndefined]⟩
  | cons first rest =>
    let isUndefined := fun member : Text => member == "undefined".toList
    have cut : dropTrailingUndefined (first :: rest) = first :: rest.rdropWhile isUndefined := rfl
    rw [cut]
    refine ⟨?_, by simp, ?_⟩
    · have same : ∀ member ∈ rest.rtakeWhile isUndefined, member = "undefined".toList := by
        intro member among
        simpa [isUndefined] using List.mem_rtakeWhile_imp among
      refine ⟨(rest.rtakeWhile isUndefined).length, ?_⟩
      rw [← List.eq_replicate_of_mem same, List.cons_append, List.rdropWhile_append_rtakeWhile]
    · intro several last
      have some : rest.rdropWhile isUndefined ≠ [] := by
        rintro none
        rw [none] at several
        exact absurd several (by simp)
      rw [List.getLast?_cons_of_ne_nil some, List.getLast?_eq_some_getLast some] at last
      have other := List.rdropWhile_last_not isUndefined rest some
      exact other (by simpa [isUndefined] using Option.some.inj last)

theorem splitTop_canonical {t : Text} (some : t ≠ []) :
    splitTop '|' (canonical t) = dropTrailingUndefined (splitTop '|' t) := by
  cases cut : dropTrailingUndefined (splitTop '|' t) with
  | nil =>
    have none : splitTop '|' t = [] := by
      cases members : splitTop '|' t with
      | nil => rfl
      | cons first rest =>
        rw [members] at cut
        cases cut
    rw [canonical_of_no_members cut, if_neg (by simpa using some), none]
  | cons first more =>
    have are := (areParts_splitTop isSeparator_bar t).sublist
      (dropTrailingUndefined_isPrefix _).sublist
    rw [cut] at are
    have visible := (are.each first List.mem_cons_self).visible
    have union : unionText (first :: more) ≠ [] := by
      cases more <;> simp [unionText, join, visible]
    rw [canonical_of_members (by simp) cut, if_neg (by simpa using union), splitTop_unionText are]

theorem normalize_of_tidy {t : Text} (some : tidy (withoutQualifiers t) ≠ []) :
    normalize t = canonical (tidy (withoutQualifiers t)) := by
  have visible : allBlank t = false := by
    by_contra blank
    have trimmed := sameWords_trim t
    rw [trim_eq_nil_iff.mpr (by simpa using blank)] at trimmed
    exact some (tidy_congr (SameWords.withoutQualifiers trimmed.symm))
  rw [normalize, if_neg (by simp [visible])]

/-- The canonical form of a text holds the members that the tidied text has, in their order and as
    they are, without the `undefined` members at the end. -/
theorem normalize_keeps_members (t : Text) :
    (tidy (withoutQualifiers t) = [] → normalize t = unknown) ∧
      (tidy (withoutQualifiers t) ≠ [] →
        IsNormal (normalize t) ∧
          splitTop '|' (normalize t) =
            dropTrailingUndefined (splitTop '|' (tidy (withoutQualifiers t))) ∧
          EndsShortened (splitTop '|' (tidy (withoutQualifiers t)))
            (splitTop '|' (normalize t))) := by
  constructor
  · intro none
    rw [normalize, none]
    split <;> rfl
  · intro some
    have members := splitTop_canonical some
    rw [← normalize_of_tidy some] at members
    rw [members]
    exact ⟨normalize_isNormal t, rfl, endsShortened_dropTrailingUndefined _⟩

end TemplateTypes.TypeText
