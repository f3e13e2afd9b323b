import TemplateTypes.Proofs.Files.Places
import TemplateTypes.Workspace.Root

namespace TemplateTypes

open Text

theorem isPrefix_dropLast_of_ne {place start : Place} (begins : start <+: place)
    (other : start ≠ place) : start <+: place.dropLast := by
  rcases List.eq_nil_or_concat' place with rfl | ⟨above, name, rfl⟩
  · exact absurd (List.prefix_nil.mp begins) other
  · rw [List.dropLast_concat]
    rcases List.prefix_concat_iff.mp begins with same | shorter
    · exact absurd same other
    · exact shorter

namespace Path

theorem mem_ancestorsFrom {root : Text} {steps : List Text} {p : Path} :
    p ∈ ancestorsFrom root steps ↔ ∃ above, above <+: steps.reverse ∧ p = ⟨root, above⟩ := by
  induction steps with
  | nil => simp [ancestorsFrom]
  | cons step steps ih =>
    rw [ancestorsFrom, List.mem_cons, ih, List.reverse_cons]
    constructor
    · rintro (rfl | ⟨above, begins, rfl⟩)
      · exact ⟨_, List.prefix_rfl, rfl⟩
      · exact ⟨above, begins.trans (List.prefix_append _ _), rfl⟩
    · rintro ⟨above, begins, rfl⟩
      rcases List.prefix_concat_iff.mp begins with rfl | shorter
      · exact .inl rfl
      · exact .inr ⟨above, shorter, rfl⟩

theorem find?_ancestorsFrom {root : Text} {steps : List Text} {holds : Path → Bool} {p : Path}
    (found : (ancestorsFrom root steps).find? holds = some p) :
    ∃ nearest, p = ⟨root, nearest⟩ ∧ nearest <+: steps.reverse ∧ holds p = true ∧
      ∀ start, start <+: steps.reverse → holds ⟨root, start⟩ = true → start <+: nearest := by
  induction steps with
  | nil =>
    have root := List.mem_of_find?_eq_some found
    obtain rfl := List.mem_singleton.mp root
    exact ⟨[], rfl, List.prefix_rfl, List.find?_some found, fun start begins _ => begins⟩
  | cons step above ih =>
    unfold ancestorsFrom at found
    rw [List.find?_cons] at found
    split at found
    · rename_i marked
      obtain rfl := Option.some.inj found
      exact ⟨_, rfl, List.prefix_rfl, marked, fun start begins _ => begins⟩
    · rename_i unmarked
      obtain ⟨nearest, same, begins, marked, others⟩ := ih found
      rw [List.reverse_cons]
      refine ⟨nearest, same, begins.trans (List.prefix_append _ _), marked, fun start inside own => ?_⟩
      rcases List.prefix_concat_iff.mp inside with rfl | shorter
      · rw [← List.reverse_cons, unmarked] at own
        cases own
      · exact others start shorter own

end Path

namespace Workspace

open FileTree

def IsMarked (files : FileTree) (markers : List Text) (place : Place) : Prop :=
  holdsMarker files markers ⟨['/'], place⟩ = true

instance (files : FileTree) (markers : List Text) (place : Place) :
    Decidable (IsMarked files markers place) := inferInstanceAs (Decidable (_ = true))

/-- Where a directory above an entry is marked, one of those is that lie at or below a base. -/
def MarkedWithin (files : FileTree) (markers : List Text) (base place : Place) : Prop :=
  ∀ above, above <+: place.dropLast → IsMarked files markers above →
    ∃ near, base <+: near ∧ near <+: place.dropLast ∧ IsMarked files markers near

variable {files : FileTree} {markers : List Text} {place : Place}

theorem absolute_placeText (named : IsNamed place) :
    absolute files (placeText place) = ⟨['/'], place⟩ := by
  unfold absolute Path.absolute
  rw [ofText_placeText named]
  change Path.flatten ⟨['/'], place⟩ = _
  exact Path.flatten_of_not_mem named.not_mem_up

theorem rootOf_eq_or (files : FileTree) (markers : List Text) (path : Text) :
    let start := (absolute files path).parent
    ∃ nearest, rootOf files markers path = ⟨start.root, nearest⟩ ∧ nearest <+: start.steps ∧
      ((holdsMarker files markers ⟨start.root, nearest⟩ = true ∧
          ∀ above, above <+: start.steps → holdsMarker files markers ⟨start.root, above⟩ = true →
            above <+: nearest) ∨
        (nearest = start.steps ∧
          ∀ above, above <+: start.steps →
            holdsMarker files markers ⟨start.root, above⟩ = false)) := by
  intro start
  cases found : start.ancestors.find? (holdsMarker files markers) with
  | none =>
    refine ⟨start.steps, ?_, List.prefix_rfl, .inr ⟨rfl, fun above begins => ?_⟩⟩
    · show (start.ancestors.find? (holdsMarker files markers)).getD start = start
      rw [found, Option.getD_none]
    · have among : ⟨start.root, above⟩ ∈ start.ancestors :=
        Path.mem_ancestorsFrom.mpr ⟨above, by rwa [List.reverse_reverse], rfl⟩
      simpa using List.find?_eq_none.mp found _ among
  | some p =>
    obtain ⟨nearest, rfl, begins, marked, others⟩ := Path.find?_ancestorsFrom found
    rw [List.reverse_reverse] at begins others
    refine ⟨nearest, ?_, begins, .inl ⟨marked, others⟩⟩
    show (start.ancestors.find? (holdsMarker files markers)).getD start = _
    rw [found, Option.getD_some]

theorem rootOf_placeText (files : FileTree) (markers : List Text) (named : IsNamed place) :
    ∃ root, rootOf files markers (placeText place) = ⟨['/'], root⟩ ∧ root <+: place.dropLast ∧
      (IsMarked files markers root ∨ root = place.dropLast) ∧
      ∀ above, above <+: place.dropLast → IsMarked files markers above → above <+: root := by
  have cases := rootOf_eq_or files markers (placeText place)
  rw [absolute_placeText named] at cases
  obtain ⟨root, same, begins, ⟨marked, nearest⟩ | ⟨rfl, _⟩⟩ := cases
  · exact ⟨root, same, begins, .inl marked, nearest⟩
  · exact ⟨_, same, begins, .inr rfl, fun above begins _ => begins⟩

/-- The workspace of an entry below a base lies there too, unless the nearest marked directory is
    above the base. -/
theorem base_isPrefix_root {base root : Place} (below : base <+: place) (inner : base ≠ place)
    (within : MarkedWithin files markers base place) (begins : root <+: place.dropLast)
    (own : IsMarked files markers root ∨ root = place.dropLast)
    (nearest : ∀ above, above <+: place.dropLast → IsMarked files markers above → above <+: root) :
    base <+: root := by
  rcases own with marked | rfl
  · obtain ⟨near, above, inside, markedNear⟩ := within root begins marked
    exact above.trans (nearest near inside markedNear)
  · exact isPrefix_dropLast_of_ne below inner

end Workspace

end TemplateTypes
