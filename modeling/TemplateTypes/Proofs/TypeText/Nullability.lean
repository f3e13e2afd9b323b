import TemplateTypes.Proofs.TypeText.Respacing
import TemplateTypes.Proofs.TypeText.Retention
import TemplateTypes.TypeText.Extracted

namespace TemplateTypes

open Text TypeText

def nullType : Text := "null".toList

def EndsInNull (t : Text) : Prop :=
  (topPiecesFrom '|' .start t).getLast?.map tidy = some nullType

instance (t : Text) : Decidable (EndsInNull t) := inferInstanceAs (Decidable (_ = _))

/-- A declared type as the flag is read off it: without the qualifiers found at the first pass. -/
def strippedType (block : Text) : Text := withoutQualifiers (Signature.declared block).type

theorem mem_splitTop_iff {separator : Char} {t member : Text} (some : member ≠ []) :
    member ∈ splitTop separator t ↔
      member ∈ (topPiecesFrom separator .start t).map trim := by
  rw [splitTop, List.mem_filter]
  exact and_iff_left (by simpa using some)

/-- `null` is a member of a tidied text if it was one before, or if only semicolons kept it from
    being the last one. -/
theorem mem_splitTop_tidy (t : Text) :
    nullType ∈ splitTop '|' (tidy t) ↔ nullType ∈ splitTop '|' t ∨ EndsInNull t := by
  have visible : nullType ≠ [] := by decide
  have solid : ∀ c ∈ nullType, isBlank c = false := by
    have all : nullType.all (!isBlank ·) = true := by decide
    simpa using all
  obtain ⟨front, last, pieces⟩ :=
    List.eq_nil_or_concat' (topPiecesFrom '|' .start t) |>.resolve_left
      (topPiecesFrom_ne_nil '|' .start t)
  have ended : EndsInNull t ↔ tidy last = nullType := by
    rw [EndsInNull, pieces, List.getLast?_concat, Option.map_some, Option.some_inj]
  have bare : trim last = nullType → tidy last = nullType := by
    intro null
    have same : tidy last = tidy nullType := by
      rw [← null]
      exact tidy_congr (sameWords_trim last).symm
    rw [same]
    decide
  have inside : nullType ∈ front.map (trim ∘ collapse) ↔ nullType ∈ front.map trim := by
    simp only [List.mem_map, Function.comp_apply, trim_collapse, collapse_eq_iff_of_solid solid]
  have one : ∀ {a : Text}, nullType ∈ [a] ↔ a = nullType := by
    intro a
    rw [List.mem_singleton, eq_comm]
  calc nullType ∈ splitTop '|' (tidy t)
    _ ↔ nullType ∈ front.map (trim ∘ collapse) ++ [tidy last] := by
      rw [splitTop_tidy (by decide) (by decide) pieces, List.mem_filter]
      exact and_iff_left (by simpa using visible)
    _ ↔ nullType ∈ front.map trim ∨ tidy last = nullType := by rw [List.mem_append, inside, one]
    _ ↔ (nullType ∈ front.map trim ∨ trim last = nullType) ∨ tidy last = nullType := by
      rw [or_assoc, or_iff_right_of_imp bare]
    _ ↔ nullType ∈ splitTop '|' t ∨ EndsInNull t := by
      rw [mem_splitTop_iff visible, pieces, List.map_append, List.mem_append, List.map_singleton,
        one, ended]

theorem mem_splitTop_normalize (t : Text) :
    nullType ∈ splitTop '|' (normalize t) ↔
      nullType ∈ splitTop '|' (withoutQualifiers t) ∨ EndsInNull (withoutQualifiers t) := by
  obtain ⟨nothing, kept⟩ := normalize_keeps_members t
  rw [← mem_splitTop_tidy]
  by_cases none : tidy (withoutQualifiers t) = []
  · rw [nothing none, none]
    decide
  · obtain ⟨_, _, shortened⟩ := kept none
    obtain ⟨n, members⟩ := shortened.dropped
    have other : nullType ∉ List.replicate n "undefined".toList := by
      intro member
      exact absurd (List.eq_of_mem_replicate member) (by decide)
    rw [members, List.mem_append, or_iff_left other]

/-- The flag tells whether `null` is among the members of the type it is reported with. -/
def ExtractedType.FlagAgrees (answer : ExtractedType) : Prop :=
  answer.nullable = true ↔ nullType ∈ splitTop '|' answer.type

theorem exists_stripped {hover : Text} {answer : ExtractedType}
    (extracted : extractType? hover = some answer) :
    ∃ block, Markdown.codeBlock? hover = some block ∧
      answer.type = normalize (strippedType block) ∧
      (answer.nullable = true ↔ nullType ∈ splitTop '|' (strippedType block)) := by
  unfold extractType? at extracted
  split at extracted
  · cases extracted
  · rename_i block fenced
    dsimp only at extracted
    split at extracted
    · cases extracted
    · have fields := Option.some.inj extracted
      refine ⟨block, fenced, ?_, ?_⟩
      · rw [← fields, strippedType]
      · rw [← fields, ← List.contains_iff_mem, strippedType, nullType]

/-- The flag agrees with the type unless cleaning the declared type once more brings a `null` to
    light or takes one away: by a qualifier that is found only now, or by semicolons behind a last
    `null`. Where no qualifier is left, it is these semicolons alone. -/
theorem flagAgrees_iff {hover : Text} {answer : ExtractedType}
    (extracted : extractType? hover = some answer) :
    ∃ block, Markdown.codeBlock? hover = some block ∧
      (answer.FlagAgrees ↔
        (nullType ∈ splitTop '|' (strippedType block) ↔
          nullType ∈ splitTop '|' (withoutQualifiers (strippedType block)) ∨
            EndsInNull (withoutQualifiers (strippedType block)))) ∧
      ((∀ u, u <:+ strippedType block → afterQualifier? u = none) →
        (answer.FlagAgrees ↔
          (EndsInNull (strippedType block) → nullType ∈ splitTop '|' (strippedType block)))) := by
  obtain ⟨block, fenced, type, flag⟩ := exists_stripped extracted
  have general := mem_splitTop_normalize (strippedType block)
  rw [← type] at general
  refine ⟨block, fenced, ?_, fun unqualified => ?_⟩
  · rw [ExtractedType.FlagAgrees, flag, general]
  · rw [withoutQualifiers_eq_self unqualified] at general
    rw [ExtractedType.FlagAgrees, flag, general, iff_self_or]

theorem flagAgrees_iff_user :
    extractType? "```ts\n(property) App.user: import(\"./m\").User | null\n```".toList =
        some ⟨"User | null".toList, true, false, .high⟩ ∧
      ((ExtractedType.mk "User | null".toList true false .high).FlagAgrees ↔
        (EndsInNull "User | null".toList → nullType ∈ splitTop '|' "User | null".toList)) := by
  have extracted :
      extractType? "```ts\n(property) App.user: import(\"./m\").User | null\n```".toList =
        some ⟨"User | null".toList, true, false, .high⟩ := by decide +kernel
  obtain ⟨block, fenced, _, settled⟩ := flagAgrees_iff extracted
  have content : some "(property) App.user: import(\"./m\").User | null".toList = some block := by
    rw [← fenced]
    decide +kernel
  obtain rfl := Option.some.inj content
  have stripped : strippedType "(property) App.user: import(\"./m\").User | null".toList =
      "User | null".toList := by decide +kernel
  rw [stripped] at settled
  refine ⟨extracted, settled fun u part => ?_⟩
  have none : ∀ u ∈ "User | null".toList.tails, afterQualifier? u = none := by decide +kernel
  exact none u ((List.mem_tails u _).mpr part)

/-- A semicolon behind a blank, the parameter of a method and a qualifier put together. -/
theorem flag_disagrees :
    (∃ answer, extractType? "```ts\n(property) App.name: string | null; ;\n```".toList =
        some answer ∧ ¬ answer.FlagAgrees) ∧
      (∃ answer, extractType? "```ts\n(method) App.set(name: string | null;): void\n```".toList =
        some answer ∧ ¬ answer.FlagAgrees) ∧
      ∃ answer, extractType?
        "```ts\n(property) App.name: string | impimport('a').ort('b').null\n```".toList =
          some answer ∧ ¬ answer.FlagAgrees := by
  refine ⟨⟨⟨"string | null".toList, false, false, .high⟩, by decide +kernel, ?_⟩,
    ⟨⟨"string | null".toList, false, false, .high⟩, by decide +kernel, ?_⟩,
    ⟨⟨"string | null".toList, false, false, .high⟩, by decide +kernel, ?_⟩⟩
  all_goals
    rw [ExtractedType.FlagAgrees]
    decide +kernel

end TemplateTypes
