import TemplateTypes.Markdown.Fence
import TemplateTypes.Proofs.Text.Search

namespace TemplateTypes.Markdown

open Text

/-- The content of the block that the fence at an offset opens, if it is closed. -/
def blockAt? (t : Text) (i : Nat) : Option Text := (afterOpening? (t.drop i)).bind untilFence?

def taggedAt (tags : List Text) (t : Text) (i : Nat) : Bool := opensTagged tags (t.drop i)

theorem blockAt?_nil (i : Nat) : blockAt? [] i = none := by
  rw [blockAt?, List.drop_nil]
  rfl

theorem taggedAt_nil (tags : List Text) (i : Nat) : taggedAt tags [] i = false := by
  rw [taggedAt, List.drop_nil]
  rfl

theorem firstBlock?_eq_some_iff {t content : Text} :
    firstBlock? t = some content ↔
      ∃ i, blockAt? t i = some content ∧ ∀ j < i, blockAt? t j = none := by
  induction t with
  | nil => simp [firstBlock?, blockAt?_nil]
  | cons c rest ih =>
    have here : blockAt? (c :: rest) 0 = (afterOpening? (c :: rest)).bind untilFence? := rfl
    rw [firstBlock?, ← here]
    split
    · rename_i first opened
      constructor
      · rintro ⟨⟩
        exact ⟨0, opened, by omega⟩
      · rintro ⟨i, found, earlier⟩
        cases i with
        | zero => exact opened.symm.trans found
        | succ i =>
          rw [earlier 0 (by omega)] at opened
          cases opened
    · rename_i unopened
      rw [ih]
      constructor
      · rintro ⟨i, found, earlier⟩
        refine ⟨i + 1, found, fun j before => ?_⟩
        cases j with
        | zero => exact unopened
        | succ j => exact earlier j (by omega)
      · rintro ⟨i, found, earlier⟩
        cases i with
        | zero =>
          rw [unopened] at found
          cases found
        | succ i => exact ⟨i, found, fun j before => earlier (j + 1) (by omega)⟩

theorem codeBlock?_eq_some_iff {t block : Text} :
    codeBlock? t = some block ↔
      ∃ content, firstBlock? t = some content ∧ allBlank content = false ∧ trim content = block := by
  unfold codeBlock?
  cases firstBlock? t with
  | none => simp
  | some content => cases blank : allBlank content <;> simp [blank]

theorem hasTaggedFence_iff {tags : List Text} {t : Text} :
    hasTaggedFence tags t = true ↔ ∃ i, taggedAt tags t i = true := by
  induction t with
  | nil => simp [hasTaggedFence, taggedAt_nil]
  | cons c rest ih =>
    rw [hasTaggedFence, Bool.or_eq_true, ih]
    constructor
    · rintro (here | ⟨i, later⟩)
      · exact ⟨0, here⟩
      · exact ⟨i + 1, later⟩
    · rintro ⟨i, tagged⟩
      cases i with
      | zero => exact .inl tagged
      | succ i => exact .inr ⟨i, tagged⟩

/-- A fence stands somewhere in the text with one of the tags behind it as a whole word. -/
def IsFenced (tags : List Text) (t : Text) : Prop :=
  ∃ before tag after, tag ∈ tags ∧ t = before ++ (fence ++ (tag ++ after)) ∧
    ∀ c ∈ after.head?, isWord c = false

structure WordTags (tags : List Text) : Prop where
  some : tags ≠ []
  words : ∀ tag ∈ tags, tag.getLast?.any isWord = true

theorem wordEnds_iff {before : Option Char} (word : before.any isWord = true) (rest : Text) :
    wordEnds before rest = true ↔ ∀ c ∈ rest.head?, isWord c = false := by
  rw [wordEnds, word]
  cases rest.head? <;> simp

theorem opensTagged_iff {tags : List Text} (wordTags : WordTags tags) {t : Text} :
    opensTagged tags t = true ↔ ∃ tag after, tag ∈ tags ∧ t = fence ++ (tag ++ after) ∧
      ∀ c ∈ after.head?, isWord c = false := by
  have kept : (if tags.isEmpty then [[]] else tags) = tags := if_neg (by simp [wordTags.some])
  have ends : ∀ tag ∈ tags, (some (tag.getLast?.getD backtick)).any isWord = true := by
    intro tag member
    have word := wordTags.words tag member
    cases last : tag.getLast? <;> simp_all
  unfold opensTagged
  rw [kept]
  constructor
  · intro opened
    split at opened
    · cases opened
    · rename_i rest found
      obtain ⟨tag, member, ended⟩ := List.any_eq_true.mp opened
      split at ended
      · cases ended
      · rename_i after behind
        refine ⟨tag, after, member, ?_, (wordEnds_iff (ends tag member) after).mp ended⟩
        rw [after?_eq_some_iff.mp found, after?_eq_some_iff.mp behind]
  · rintro ⟨tag, after, member, rfl, ended⟩
    rw [after?_eq_some_iff.mpr rfl]
    refine List.any_eq_true.mpr ⟨tag, member, ?_⟩
    rw [after?_eq_some_iff.mpr rfl]
    exact (wordEnds_iff (ends tag member) after).mpr ended

theorem hasTaggedFence_iff_isFenced {tags : List Text} (wordTags : WordTags tags) {t : Text} :
    hasTaggedFence tags t = true ↔ IsFenced tags t := by
  rw [hasTaggedFence_iff]
  constructor
  · rintro ⟨i, tagged⟩
    obtain ⟨tag, after, member, text, ends⟩ := (opensTagged_iff wordTags).mp tagged
    exact ⟨t.take i, tag, after, member, by rw [← text, List.take_append_drop], ends⟩
  · rintro ⟨before, tag, after, member, rfl, ends⟩
    refine ⟨before.length, (opensTagged_iff wordTags).mpr ⟨tag, after, member, ?_, ends⟩⟩
    exact List.drop_left

end TemplateTypes.Markdown
