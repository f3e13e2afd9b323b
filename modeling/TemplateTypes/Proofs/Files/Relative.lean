import TemplateTypes.Proofs.Files.Path
import TemplateTypes.Proofs.Text.Search

namespace TemplateTypes

open Text

namespace Path

theorem stepsOf_append_cons (a t : Text) : stepsOf (a ++ '/' :: t) = stepsOf a ++ stepsOf t := by
  rw [stepsOf, pieces_append_cons, List.filter_append]
  rfl

theorem stepsOf_concat (a : Text) : stepsOf (a ++ ['/']) = stepsOf a := by
  rw [stepsOf_append_cons]
  simp [stepsOf, pieces]

theorem stepsOf_joinText {b : Text} (relative : startsWith b ['/'] = false) (a : Text) :
    stepsOf (joinText a b) = stepsOf a ++ stepsOf b := by
  rw [joinText, relative, if_neg (by simp)]
  split
  · rename_i ends
    rcases Bool.or_eq_true_iff.mp ends with empty | slash
    · rw [List.isEmpty_iff.mp empty]
      rfl
    · rw [endsWith_single, beq_iff_eq] at slash
      obtain ⟨front, rfl⟩ := List.getLast?_eq_some_iff.mp slash
      rw [List.append_assoc, List.singleton_append, stepsOf_append_cons, stepsOf_concat]
  · exact stepsOf_append_cons a b

/-- Absolute, without steps up and with a text that reads back. -/
structure IsNormal (p : Path) : Prop where
  proper : p.Proper
  absolute : p.root ≠ []
  onward : up ∉ p.steps

section

variable {p start place : Path} {t : Text}

theorem startsWith_slash_cons (c : Char) (t : Text) :
    startsWith (c :: t) ['/'] = ('/' == c) := by
  simp [startsWith, List.isPrefixOf]

theorem IsNormal.root_cases (normal : p.IsNormal) : p.root = ['/'] ∨ p.root = ['/', '/'] :=
  normal.proper.root.resolve_left normal.absolute

theorem rootOf_append {root : Text} (slashes : root = ['/'] ∨ root = ['/', '/'])
    (relative : startsWith t ['/'] = false) : rootOf (root ++ t) = root := by
  cases t with
  | nil => rcases slashes with rfl | rfl <;> rfl
  | cons c t =>
    have named : c ≠ '/' := by
      rintro rfl
      simp [startsWith_slash_cons] at relative
    rcases slashes with rfl | rfl <;> simp [rootOf, named]

theorem IsNormal.toText_eq (normal : p.IsNormal) : p.toText = p.root ++ join ['/'] p.steps := by
  simp [toText, normal.absolute]

theorem Proper.exists_join (proper : p.Proper) (stepped : p.steps ≠ []) :
    ∃ c rest, join ['/'] p.steps = c :: rest ∧ c ≠ '/' := by
  obtain ⟨root, steps⟩ := p
  obtain ⟨step, more, rfl⟩ := List.exists_cons_of_ne_nil stepped
  obtain ⟨free, nonempty, _⟩ := proper.steps step List.mem_cons_self
  obtain ⟨c, rest, rfl⟩ := List.exists_cons_of_ne_nil nonempty
  rw [join_cons]
  refine ⟨c, _, rfl, ?_⟩
  rintro rfl
  exact free List.mem_cons_self

theorem IsNormal.ofText_joinText (normal : p.IsNormal) (relative : startsWith t ['/'] = false) :
    ofText (joinText p.toText t) = ⟨p.root, p.steps ++ stepsOf t⟩ := by
  have steps : stepsOf (joinText p.toText t) = p.steps ++ stepsOf t := by
    rw [stepsOf_joinText relative, normal.proper.stepsOf_toText normal.absolute]
  have root : rootOf (joinText p.toText t) = p.root := by
    by_cases stepped : p.steps = []
    · have bare : p.toText = p.root := by rw [normal.toText_eq, stepped, join, List.append_nil]
      have ends : endsWith p.root ['/'] = true := by
        rcases normal.root_cases with same | same <;> rw [same] <;> rfl
      rw [bare, joinText, relative, ends, Bool.or_true, if_neg (by simp), if_pos rfl]
      exact rootOf_append normal.root_cases relative
    · obtain ⟨c, rest, written, named⟩ := normal.proper.exists_join stepped
      have behind : ∃ tail, joinText p.toText t = p.root ++ (c :: tail) := by
        rw [normal.toText_eq, written, joinText, relative, if_neg (by simp)]
        split
        · exact ⟨rest ++ t, by simp⟩
        · exact ⟨rest ++ '/' :: t, by simp⟩
      obtain ⟨tail, whole⟩ := behind
      rw [whole]
      refine rootOf_append normal.root_cases ?_
      rw [startsWith_slash_cons]
      simpa using Ne.symm named
  rw [ofText, root, steps]

end

theorem exists_common (start target : List Text) :
    ∃ common, start = common ++ (dropCommon start target).1 ∧
      target = common ++ (dropCommon start target).2 ∧
      ∀ a as b bs, dropCommon start target = (a :: as, b :: bs) → a ≠ b := by
  induction start generalizing target with
  | nil => exact ⟨[], by simp [dropCommon]⟩
  | cons a start ih =>
    cases target with
    | nil => exact ⟨[], by simp [dropCommon]⟩
    | cons b target =>
      rw [dropCommon]
      split
      · rename_i same
        obtain ⟨common, startParts, targetParts, differ⟩ := ih target
        refine ⟨a :: common, ?_, ?_, differ⟩
        · rw [List.cons_append, ← startParts]
        · rw [List.cons_append, ← targetParts, beq_iff_eq.mp same]
      · rename_i other
        refine ⟨[], rfl, rfl, ?_⟩
        rintro _ _ _ _ ⟨⟩
        exact fun same => other (beq_iff_eq.mpr same)

theorem foldl_pushStep_climb {taken : List Text} (onward : up ∉ taken) (done : List Text) :
    (taken.map fun _ => up).foldl (pushStep true) (taken ++ done) = done := by
  induction taken with
  | nil => rfl
  | cons step taken ih =>
    rw [List.mem_cons, not_or] at onward
    have back : pushStep true (step :: (taken ++ done)) up = taken ++ done := by
      simp [pushStep, Ne.symm onward.1]
    rw [List.map_cons, List.foldl_cons, List.cons_append, back, ih onward.2]

theorem flatten_climb {root : Text} {common climb descend : List Text} (absolute : root ≠ [])
    (behind : up ∉ common ++ climb) (ahead : up ∉ descend) :
    flatten ⟨root, (common ++ climb) ++ (climb.map (fun _ => up) ++ descend)⟩ =
      ⟨root, common ++ descend⟩ := by
  have isAbsolute : isAbsolute ⟨root, (common ++ climb) ++ (climb.map (fun _ => up) ++ descend)⟩ =
      true := by simpa [Path.isAbsolute] using absolute
  have turned : climb.map (fun _ => up) = climb.reverse.map (fun _ => up) := by simp
  have onward : up ∉ climb.reverse := by
    rw [List.mem_reverse]
    exact fun inside => behind (List.mem_append_right common inside)
  rw [flatten, isAbsolute]
  dsimp only
  rw [List.foldl_append, List.foldl_append, foldl_pushStep_of_not_mem behind, List.append_nil,
    List.reverse_append, turned, foldl_pushStep_climb onward, foldl_pushStep_of_not_mem ahead,
    List.reverse_append, List.reverse_reverse, List.reverse_reverse]

/-- The steps from one place to another: up out of what they do not share, then down. -/
def wayTo (start place : List Text) : List Text :=
  (dropCommon start place).1.map (fun _ => up) ++ (dropCommon start place).2

theorem proper_wayTo {place : Path} (proper : place.Proper) (start : List Text) :
    Path.Proper ⟨[], wayTo start place.steps⟩ where
  root := .inl rfl
  steps := by
    obtain ⟨common, _, parts, _⟩ := exists_common start place.steps
    intro step member
    rcases List.mem_append.mp member with climbs | descends
    · obtain ⟨_, _, rfl⟩ := List.mem_map.mp climbs
      decide
    · apply proper.steps
      rw [parts]
      exact List.mem_append_right common descends

theorem Proper.stepsOf_toText_way {way : List Text} (proper : Path.Proper ⟨[], way⟩) :
    stepsOf (toText ⟨[], way⟩) = way := by
  cases way with
  | nil => decide
  | cons step rest => exact congrArg Path.steps (proper.ofText_toText (by simp))

theorem IsNormal.flatten_joinText {start place : Path} {t : Text} (origin : start.IsNormal)
    (goal : place.IsNormal) (bare : startsWith t ['/'] = false)
    (way : stepsOf t = wayTo start.steps place.steps) :
    (ofText (joinText start.toText t)).flatten = ⟨start.root, place.steps⟩ := by
  obtain ⟨common, startParts, placeParts, _⟩ := exists_common start.steps place.steps
  have behind := origin.onward
  rw [startParts] at behind
  have ahead : up ∉ (dropCommon start.steps place.steps).2 := by
    have onward := goal.onward
    rw [placeParts] at onward
    exact fun inside => onward (List.mem_append_right common inside)
  have climbed := flatten_climb origin.absolute behind ahead
  rw [← startParts, ← placeParts] at climbed
  rw [origin.ofText_joinText bare, way, wayTo, climbed]

theorem flatten_concat_up {p : Path} (absolute : p.root ≠ []) (onward : up ∉ p.steps) :
    flatten ⟨p.root, p.steps ++ [up]⟩ = p.parent := by
  have isAbsolute : isAbsolute ⟨p.root, p.steps ++ [up]⟩ = true := by
    simpa [Path.isAbsolute] using absolute
  have last : pushStep true p.steps.reverse up = p.steps.reverse.tail := by
    cases turned : p.steps.reverse with
    | nil => rfl
    | cons step rest =>
      have named : step ≠ up := by
        rintro rfl
        exact onward (List.mem_reverse.mp (turned ▸ List.mem_cons_self))
      simp [pushStep, named]
  rw [flatten, isAbsolute, List.foldl_append, foldl_pushStep_of_not_mem onward, List.append_nil,
    List.foldl_cons, List.foldl_nil, last, List.tail_reverse, List.reverse_reverse]
  rfl

theorem IsNormal.ofText_toText {p : Path} (normal : p.IsNormal) : ofText p.toText = p :=
  normal.proper.ofText_toText_of_absolute normal.absolute

theorem IsNormal.parent {p : Path} (normal : p.IsNormal) : p.parent.IsNormal where
  proper := ⟨normal.proper.root, fun step member =>
    normal.proper.steps step (List.dropLast_subset _ member)⟩
  absolute := normal.absolute
  onward inside := normal.onward (List.dropLast_subset _ inside)

theorem mem_foldl_pushStep {steps done : List Text} (onward : up ∉ done) {step : Text}
    (member : step ∈ steps.foldl (pushStep true) done) :
    step ≠ up ∧ (step ∈ steps ∨ step ∈ done) := by
  induction steps generalizing done with
  | nil => exact ⟨fun same => onward (same ▸ member), .inr member⟩
  | cons first rest ih =>
    have pushed : up ∉ pushStep true done first ∧
        ∀ other ∈ pushStep true done first, other = first ∨ other ∈ done := by
      unfold pushStep
      split
      · cases done with
        | nil => simp
        | cons last more =>
          rw [List.mem_cons, not_or] at onward
          simpa [Ne.symm onward.1] using ⟨onward.2, fun other inside => .inr (.inr inside)⟩
      · rename_i named
        have named : first ≠ up := by simpa using named
        simpa using ⟨Ne.symm named, onward⟩
    obtain ⟨other, own | later⟩ := ih pushed.1 member
    · exact ⟨other, .inl (List.mem_cons_of_mem first own)⟩
    · rcases pushed.2 step later with rfl | inside
      · exact ⟨other, .inl List.mem_cons_self⟩
      · exact ⟨other, .inr inside⟩

theorem Proper.isNormal_flatten {p : Path} (proper : p.Proper) (absolute : p.root ≠ []) :
    p.flatten.IsNormal := by
  have isAbsolute : p.isAbsolute = true := by simpa [Path.isAbsolute] using absolute
  have kept : ∀ step ∈ p.flatten.steps, step ≠ up ∧ step ∈ p.steps := by
    intro step member
    rw [flatten, isAbsolute, List.mem_reverse] at member
    obtain ⟨named, own | ⟨⟨⟩⟩⟩ := mem_foldl_pushStep (by simp) member
    exact ⟨named, own⟩
  exact ⟨⟨proper.root, fun step member => proper.steps step (kept step member).2⟩, absolute,
    fun inside => (kept up inside).1 rfl⟩

theorem absolute_of_root {p : Path} (absolute : p.root ≠ []) (here : Path) :
    here.absolute p = p.flatten := by
  have own : here / p = p := by
    change Path.append here p = p
    simp [Path.append, isAbsolute, absolute]
  rw [Path.absolute, own]

theorem IsNormal.absolute_eq {p : Path} (normal : p.IsNormal) (here : Path) :
    here.absolute p = p := by
  rw [absolute_of_root normal.absolute, flatten_of_not_mem normal.onward]

theorem parent_child_name {p : Path} (stepped : p.steps ≠ []) : p.parent.child p.name = p := by
  have last := List.dropLast_append_getLast stepped
  simp [child, parent, name, List.getLast?_eq_getLast_of_ne_nil stepped, last]

end Path

end TemplateTypes
