import TemplateTypes.Inference.Probing
import TemplateTypes.Proofs.Markdown.Fence

namespace TemplateTypes

open Text Markdown

namespace QueryClient

theorem tagged_of_select {tags : List Text} {candidates : List Json} {c : Text}
    (selected : select tags candidates = .ok (some c)) :
    ∃ before after, candidates = before ++ .str c :: after ∧
      (∀ t, .str t ∈ before → hasTaggedFence tags t = false) ∧
      hasTaggedFence tags c = true := by
  induction candidates with
  | nil => cases selected
  | cons candidate more ih =>
    unfold select at selected
    split at selected
    · rename_i t
      split at selected
      · -- The first candidate is the one.
        rename_i tagged
        simp only [Except.ok.injEq, Option.some.injEq] at selected
        exact ⟨[], more, by rw [selected]; rfl, by simp, selected ▸ tagged⟩
      · rename_i untagged
        obtain ⟨before, after, rfl, others, tagged⟩ := ih selected
        refine ⟨.str t :: before, after, rfl, ?_, tagged⟩
        intro u member
        rcases List.mem_cons.mp member with same | member
        · rw [Json.str.inj same]
          exact Bool.eq_false_iff.mpr untagged
        · exact others u member
    · rename_i notText
      split at selected
      · cases selected
      · obtain ⟨before, after, rfl, others, tagged⟩ := ih selected
        refine ⟨candidate :: before, after, rfl, ?_, tagged⟩
        intro u member
        rcases List.mem_cons.mp member with same | member
        · exact absurd same.symm (notText u)
        · exact others u member

end QueryClient

theorem block_of_judge {name hover : Text} {candidates : List Json} {entry : InferredType}
    (judged : Prober.judge name (.ok (.found hover candidates)) = .ok entry) :
    ∃ block, codeBlock? hover = some block ∧
      entry.type = TypeText.normalize (TypeText.withoutQualifiers (Signature.declared block).type) := by
  cases found : codeBlock? hover with
  | none => simp [Prober.judge, Prober.entryOf, extractType?, found] at judged
  | some block =>
    refine ⟨block, rfl, ?_⟩
    simp only [Prober.judge, Prober.entryOf, extractType?, found] at judged
    by_cases undeclared : (Signature.declared block).type.isEmpty
    · simp [undeclared] at judged
    · simp only [undeclared, Bool.false_eq_true, ↓reduceIte] at judged
      split at judged
      · cases judged
      · rename_i judgedEntry
        split at judgedEntry
        · cases judgedEntry
        · simp only [Except.ok.injEq] at judgedEntry judged
          rw [← judged, ← judgedEntry]

/-- The first candidate with a tagged fence is selected, and its first block is read, which carries
    a tag unless it stands before every block that does. -/
theorem first_block_of_selected {tags : List Text} {candidates : List Json} {c : Text}
    (selected : QueryClient.select tags candidates = .ok (some c)) :
    (∃ before after i, candidates = before ++ .str c :: after ∧
      (∀ t, .str t ∈ before → ∀ j, taggedAt tags t j = false) ∧ taggedAt tags c i = true) ∧
    (∀ block, codeBlock? c = some block ↔ ∃ i content, blockAt? c i = some content ∧
      allBlank content = false ∧ trim content = block ∧ (∀ j < i, blockAt? c j = none) ∧
      (taggedAt tags c i = true ∨ ∀ j, taggedAt tags c j = true → blockAt? c j ≠ none → i < j)) ∧
    ∀ name entry, Prober.judge name (.ok (.found c candidates)) = .ok entry →
      ∃ block, codeBlock? c = some block ∧ entry.type =
        TypeText.normalize (TypeText.withoutQualifiers (Signature.declared block).type) := by
  refine ⟨?_, ?_, fun name entry judged => block_of_judge judged⟩
  · obtain ⟨before, after, split, others, tagged⟩ := QueryClient.tagged_of_select selected
    obtain ⟨i, tagged⟩ := hasTaggedFence_iff.mp tagged
    refine ⟨before, after, i, split, fun t member j => ?_, tagged⟩
    refine Bool.eq_false_iff.mpr fun fence => ?_
    have untagged := others t member
    rw [hasTaggedFence_iff.mpr ⟨j, fence⟩] at untagged
    cases untagged
  · intro block
    constructor
    · intro found
      obtain ⟨content, first, filled, trimmed⟩ := codeBlock?_eq_some_iff.mp found
      obtain ⟨i, opened, earlier⟩ := firstBlock?_eq_some_iff.mp first
      refine ⟨i, content, opened, filled, trimmed, earlier, ?_⟩
      cases tagged : taggedAt tags c i with
      | true => exact .inl rfl
      | false =>
        refine .inr fun j other opens => ?_
        rcases Nat.lt_trichotomy i j with before | rfl | early
        · exact before
        · rw [tagged] at other
          cases other
        · exact absurd (earlier j early) opens
    · rintro ⟨i, content, opened, filled, trimmed, earlier, _⟩
      exact codeBlock?_eq_some_iff.mpr
        ⟨content, firstBlock?_eq_some_iff.mpr ⟨i, opened, earlier⟩, filled, trimmed⟩

def styledHover : Text :=
  "\x60\x60\x60css\ncolor: red\n\x60\x60\x60\n\x60\x60\x60ts\nconst x: number\n\x60\x60\x60".toList

theorem first_block_of_selected_styled :
    QueryClient.select QueryClient.typeScriptTags [.str styledHover] = .ok (some styledHover) ∧
      ∃ i content, blockAt? styledHover i = some content ∧ trim content = "color: red".toList ∧
        ∀ j, taggedAt QueryClient.typeScriptTags styledHover j = true →
          blockAt? styledHover j ≠ none → i < j := by
  have selected : QueryClient.select QueryClient.typeScriptTags [.str styledHover] =
      .ok (some styledHover) := rfl
  obtain ⟨_, read, _⟩ := first_block_of_selected selected
  obtain ⟨i, content, opened, _, trimmed, earlier, tagged | later⟩ :=
    (read "color: red".toList).mp (by decide +kernel)
  · cases i with
    | zero => exact absurd tagged (by decide +kernel)
    | succ i => exact absurd (earlier 0 (by omega)) (by decide +kernel)
  · exact ⟨selected, i, content, opened, trimmed, later⟩

/-- The type that is reported is read from the style sheet. -/
theorem untagged_block_read :
    ¬ ∀ (candidates : List Json) (c : Text),
      QueryClient.select QueryClient.typeScriptTags candidates = .ok (some c) →
      ∀ block, codeBlock? c = some block → ∃ i content, blockAt? c i = some content ∧
        taggedAt QueryClient.typeScriptTags c i = true ∧ trim content = block := by
  intro claimed
  obtain ⟨i, content, opened, tagged, trimmed⟩ := claimed [.str styledHover] styledHover rfl
    "color: red".toList (by decide +kernel)
  have others : ∀ j < styledHover.length,
      taggedAt QueryClient.typeScriptTags styledHover j = true →
        (blockAt? styledHover j).map trim ≠ some "color: red".toList := by decide +kernel
  rcases Nat.lt_or_ge i styledHover.length with inside | beyond
  · exact others i inside tagged (by rw [opened, Option.map_some, trimmed])
  · rw [blockAt?, List.drop_eq_nil_of_le beyond] at opened
    cases opened

end TemplateTypes
