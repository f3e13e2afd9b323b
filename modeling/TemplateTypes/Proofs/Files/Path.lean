import TemplateTypes.Files.Path
import TemplateTypes.Proofs.Text.Pieces
import TemplateTypes.Proofs.Text.Spacing

namespace TemplateTypes

open Text

namespace Path

/-- The root is one that a text can have, and no step is lost or cut when the text is read. -/
structure Proper (p : Path) : Prop where
  root : p.root = [] ∨ p.root = ['/'] ∨ p.root = ['/', '/']
  steps : ∀ step ∈ p.steps, '/' ∉ step ∧ step ≠ [] ∧ step ≠ ['.']

theorem rootOf_cases (t : Text) : rootOf t = [] ∨ rootOf t = ['/'] ∨ rootOf t = ['/', '/'] := by
  unfold rootOf
  split <;> simp

theorem proper_ofText (t : Text) : (ofText t).Proper where
  root := rootOf_cases t
  steps := by
    intro step member
    obtain ⟨piece, kept⟩ := List.mem_filter.mp member
    refine ⟨not_mem_of_mem_pieces piece, ?_, ?_⟩
    · rintro rfl
      simp at kept
    · rintro rfl
      simp at kept

theorem Proper.append {p q : Path} (first : p.Proper) (second : q.Proper) : (p / q).Proper := by
  change (Path.append p q).Proper
  unfold Path.append
  split
  · exact second
  · refine ⟨first.root, fun step member => ?_⟩
    rcases List.mem_append.mp member with member | member
    · exact first.steps step member
    · exact second.steps step member

theorem Proper.child {p : Path} {step : Text} (proper : p.Proper) (free : '/' ∉ step)
    (nonempty : step ≠ []) (notDot : step ≠ ['.']) : (p.child step).Proper := by
  refine ⟨proper.root, fun other member => ?_⟩
  rcases List.mem_append.mp member with member | member
  · exact proper.steps other member
  · rw [List.mem_singleton.mp member]
    exact ⟨free, nonempty, notDot⟩

theorem Proper.ofText_toText {p : Path} (proper : p.Proper) (stepped : p.steps ≠ []) :
    ofText p.toText = p := by
  obtain ⟨root, steps⟩ := p
  obtain ⟨first, more, rfl⟩ := List.exists_cons_of_ne_nil stepped
  obtain ⟨freeFirst, nonempty, _⟩ := proper.steps first List.mem_cons_self
  obtain ⟨c, rest, rfl⟩ := List.exists_cons_of_ne_nil nonempty
  have notSlash : c ≠ '/' := by
    rintro rfl
    exact freeFirst List.mem_cons_self
  have split : pieces '/' (join ['/'] ((c :: rest) :: more)) = (c :: rest) :: more :=
    pieces_join (by simp) fun step member => (proper.steps step member).1
  have kept : stepsOf (join ['/'] ((c :: rest) :: more)) = (c :: rest) :: more := by
    rw [stepsOf, split, List.filter_eq_self]
    intro step member
    obtain ⟨_, filled, notDot⟩ := proper.steps step member
    simp [filled, notDot]
  obtain ⟨tail, starts⟩ : ∃ tail, join ['/'] ((c :: rest) :: more) = c :: tail := by
    rw [join_cons]
    exact ⟨_, rfl⟩
  rw [starts] at kept
  have behind : ∀ t, stepsOf ('/' :: t) = stepsOf t := by simp [stepsOf, pieces]
  rcases proper.root with rfl | rfl | rfl
  · simp [ofText, toText, starts, kept, rootOf, notSlash]
  · simp [ofText, toText, starts, kept, rootOf, notSlash, behind]
  · simp [ofText, toText, starts, kept, rootOf, notSlash, behind]

theorem rootOf_eq_nil_iff {path : Text} : rootOf path = [] ↔ startsWith path ['/'] = false := by
  unfold rootOf
  split
  · simp [startsWith, List.isPrefixOf]
  · simp [startsWith, List.isPrefixOf]
  · simp [startsWith, List.isPrefixOf]
  · rename_i _ _ other
    cases path with
    | nil => simp [startsWith, List.isPrefixOf]
    | cons c rest =>
      have notSlash : '/' ≠ c := fun same => other rest (same ▸ rfl)
      simp [startsWith, List.isPrefixOf, notSlash]

theorem Proper.startsWith_toText {p : Path} (proper : p.Proper) (absolute : p.root ≠ []) :
    startsWith p.toText ['/'] = true := by
  obtain ⟨root, steps⟩ := p
  rcases proper.root with rfl | rfl | rfl
  · exact absurd rfl absolute
  · simp [toText, startsWith, List.isPrefixOf]
  · simp [toText, startsWith, List.isPrefixOf]

theorem Proper.ofText_toText_of_absolute {p : Path} (proper : p.Proper) (absolute : p.root ≠ []) :
    ofText p.toText = p := by
  by_cases stepped : p.steps = []
  · obtain ⟨root, steps⟩ := p
    obtain rfl := stepped
    rcases proper.root with rfl | rfl | rfl
    · exact absurd rfl absolute
    · rfl
    · rfl
  · exact proper.ofText_toText stepped

theorem Proper.stepsOf_toText {p : Path} (proper : p.Proper) (absolute : p.root ≠ []) :
    stepsOf p.toText = p.steps :=
  congrArg Path.steps (proper.ofText_toText_of_absolute absolute)

theorem nul_mem_iff (path : Text) : '\x00' ∈ path ↔ ∃ step ∈ stepsOf path, '\x00' ∈ step := by
  constructor
  · intro inside
    rw [← join_pieces '/' path] at inside
    rcases mem_of_mem_join inside with slash | ⟨step, piece, own⟩
    · exact absurd slash (by decide)
    · refine ⟨step, List.mem_filter.mpr ⟨piece, ?_⟩, own⟩
      have filled : step ≠ [] := List.ne_nil_of_mem own
      have other : step ≠ ['.'] := by
        rintro rfl
        exact absurd own (by decide)
      simp [filled, other]
  · rintro ⟨step, member, own⟩
    rw [← join_pieces '/' path]
    exact mem_join_of_mem (List.mem_filter.mp member).1 own

theorem Proper.nul_mem_toText_iff {p : Path} (proper : p.Proper) (absolute : p.root ≠ []) :
    '\x00' ∈ p.toText ↔ ∃ step ∈ p.steps, '\x00' ∈ step := by
  rw [nul_mem_iff, proper.stepsOf_toText absolute]

theorem pushStep_of_ne {absolute : Bool} {done : List Text} {step : Text} (named : step ≠ up) :
    pushStep absolute done step = step :: done := by
  simp [pushStep, named]

theorem foldl_pushStep_of_not_mem {absolute : Bool} {steps : List Text} (onward : up ∉ steps)
    (done : List Text) : steps.foldl (pushStep absolute) done = steps.reverse ++ done := by
  induction steps generalizing done with
  | nil => rfl
  | cons step rest ih =>
    have named : step ≠ up := fun same => onward (same ▸ List.mem_cons_self)
    rw [List.foldl_cons, pushStep_of_ne named, ih fun inside => onward (List.mem_cons_of_mem _ inside)]
    simp

theorem flatten_of_not_mem {p : Path} (onward : up ∉ p.steps) : p.flatten = p := by
  simp [flatten, foldl_pushStep_of_not_mem onward]

theorem up_mem_foldl_pushStep {steps done : List Text} (inside : up ∈ done) :
    up ∈ steps.foldl (pushStep false) done := by
  induction steps generalizing done with
  | nil => exact inside
  | cons step rest ih =>
    refine ih ?_
    unfold pushStep
    split
    · cases done with
      | nil => cases inside
      | cons last more =>
        dsimp only
        split
        · exact List.mem_cons_of_mem _ inside
        · rename_i other
          rcases List.mem_cons.mp inside with same | later
          · exact absurd (by rw [← same]; exact beq_self_eq_true _) other
          · exact later
    · exact List.mem_cons_of_mem _ inside

theorem foldl_pushStep_level {steps done above : List Text}
    (level : up ∉ steps.foldl (pushStep false) done) :
    steps.foldl (pushStep true) (done ++ above) =
      steps.foldl (pushStep false) done ++ above := by
  induction steps generalizing done with
  | nil => rfl
  | cons step rest ih =>
    rw [List.foldl_cons] at level ⊢
    have stays : up ∉ pushStep false done step := fun inside => level (up_mem_foldl_pushStep inside)
    have pushed : pushStep true (done ++ above) step = pushStep false done step ++ above := by
      unfold pushStep at stays ⊢
      split
      · rename_i isUp
        rw [if_pos isUp] at stays
        cases done with
        | nil => simp at stays
        | cons last more =>
          dsimp only at stays ⊢
          by_cases climbs : last == up
          · rw [if_pos climbs] at stays
            simp at stays
          · simp only [List.cons_append, climbs, Bool.false_eq_true, ↓reduceIte]
      · rfl
    rw [pushed, ih level, List.foldl_cons]

def IsLevel (steps : List Text) : Prop := up ∉ steps.foldl (pushStep false) []

theorem isLevel_stepsOf_iff {path : Text} (relative : startsWith path ['/'] = false) :
    IsLevel (stepsOf path) ↔ up ∉ (ofText path).flatten.steps := by
  have rootless : rootOf path = [] := rootOf_eq_nil_iff.mpr relative
  simp [IsLevel, flatten, ofText, isAbsolute, rootless]

theorem IsLevel.of_isPrefix {steps start : List Text} (level : IsLevel steps)
    (begins : start <+: steps) : IsLevel start := by
  obtain ⟨rest, rfl⟩ := begins
  unfold IsLevel at level
  rw [List.foldl_append] at level
  exact fun climbs => level (up_mem_foldl_pushStep climbs)

theorem IsLevel.concat {steps : List Text} {step : Text} (level : IsLevel steps)
    (named : step ≠ up) : IsLevel (steps ++ [step]) := by
  unfold IsLevel
  rw [List.foldl_append, List.foldl_cons, List.foldl_nil, pushStep_of_ne named]
  exact List.not_mem_cons_of_ne_of_not_mem (Ne.symm named) level

theorem IsLevel.isPrefix_flatten {names steps : List Text} (level : IsLevel steps)
    (onward : up ∉ names) : names <+: (Path.flatten ⟨['/'], names ++ steps⟩).steps := by
  have pushed : (names ++ steps).foldl (pushStep true) [] =
      steps.foldl (pushStep false) [] ++ names.reverse := by
    rw [List.foldl_append, foldl_pushStep_of_not_mem onward, List.append_nil]
    exact foldl_pushStep_level level
  show names <+: ((names ++ steps).foldl (pushStep true) []).reverse
  rw [pushed, List.reverse_append, List.reverse_reverse]
  exact List.prefix_append _ _

end Path

end TemplateTypes
