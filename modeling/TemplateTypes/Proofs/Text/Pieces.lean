import TemplateTypes.Text.Basic
import Mathlib.Data.List.Basic

namespace TemplateTypes.Text

theorem not_mem_of_mem_pieces {separator : Char} {t piece : Text}
    (member : piece ∈ pieces separator t) : separator ∉ piece := by
  induction t generalizing piece with
  | nil => simp_all [pieces]
  | cons c rest ih =>
    unfold pieces at member
    split at member
    · rcases List.mem_cons.mp member with rfl | member
      · exact List.not_mem_nil
      · exact ih member
    · rename_i other
      have differs : separator ≠ c := fun same => other (by simp [same])
      split at member
      · rw [List.mem_singleton.mp member]
        simpa using differs
      · rename_i first more split
        rcases List.mem_cons.mp member with rfl | member
        · have free := ih (split ▸ List.mem_cons_self)
          simpa [differs] using free
        · exact ih (split ▸ List.mem_cons_of_mem first member)

theorem pieces_append_separator {separator : Char} {a : Text} (free : separator ∉ a) (t : Text) :
    pieces separator (a ++ separator :: t) = a :: pieces separator t := by
  induction a with
  | nil => simp [pieces]
  | cons c a ih =>
    have differs : ¬ c = separator := fun same => free (by simp [same])
    have freeRest : separator ∉ a := fun member => free (List.mem_cons_of_mem c member)
    simp [pieces, differs, ih freeRest]

theorem pieces_append {separator : Char} {a t piece : Text} {more : List Text}
    (free : separator ∉ a) (cut : pieces separator t = piece :: more) :
    pieces separator (a ++ t) = (a ++ piece) :: more := by
  induction a with
  | nil => exact cut
  | cons c a ih =>
    have differs : ¬ c = separator := fun same => free (by simp [same])
    have freeRest : separator ∉ a := fun member => free (List.mem_cons_of_mem c member)
    simp [pieces, differs, ih freeRest]

theorem pieces_of_free {separator : Char} {a : Text} (free : separator ∉ a) :
    pieces separator a = [a] := by
  induction a with
  | nil => rfl
  | cons c a ih =>
    have differs : ¬ c = separator := fun same => free (by simp [same])
    have freeRest : separator ∉ a := fun member => free (List.mem_cons_of_mem c member)
    simp [pieces, differs, ih freeRest]

theorem pieces_join {separator : Char} {parts : List Text} (nonempty : parts ≠ [])
    (free : ∀ part ∈ parts, separator ∉ part) :
    pieces separator (join [separator] parts) = parts := by
  induction parts with
  | nil => exact absurd rfl nonempty
  | cons first more ih =>
    have freeFirst := free first List.mem_cons_self
    cases more with
    | nil => exact pieces_of_free freeFirst
    | cons second rest =>
      have others := ih (by simp) fun part member => free part (List.mem_cons_of_mem first member)
      rw [join, List.append_assoc, List.singleton_append, pieces_append_separator freeFirst, others]
      simp

theorem pieces_ne_nil (separator : Char) (t : Text) : pieces separator t ≠ [] := by
  cases t with
  | nil => simp [pieces]
  | cons c rest =>
    unfold pieces
    split
    · simp
    · split <;> simp

theorem pieces_append_cons (separator : Char) (a t : Text) :
    pieces separator (a ++ separator :: t) = pieces separator a ++ pieces separator t := by
  induction a with
  | nil => simp [pieces]
  | cons c a ih =>
    rw [List.cons_append, pieces, pieces, ih]
    cases cut : pieces separator a with
    | nil => exact absurd cut (pieces_ne_nil separator a)
    | cons piece more => split <;> simp

theorem join_pieces (separator : Char) (t : Text) :
    join [separator] (pieces separator t) = t := by
  induction t with
  | nil => rfl
  | cons c rest ih =>
    have some := pieces_ne_nil separator rest
    unfold pieces
    cases split : pieces separator rest with
    | nil => exact absurd split some
    | cons piece more =>
      rw [split] at ih
      by_cases same : c = separator
      · simp [same, join, ih]
      · cases more with
        | nil => simpa [same, join] using ih
        | cons second more => simpa [same, join] using ih

end TemplateTypes.Text
