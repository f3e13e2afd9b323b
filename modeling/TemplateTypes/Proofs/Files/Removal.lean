import Mathlib.Data.List.Basic
import TemplateTypes.Proofs.Files.Tree

namespace TemplateTypes

open Text

namespace FileTree

section

variable {tree : FileTree} {through : Bool} {links : Nat} {start : Place} {steps : List Text}
  {ending : Destination}

theorem Walks.directory_of_cons {step : Text}
    (walks : Walks tree through links start (step :: steps) ending) :
    tree.node? start = some .directory := by
  cases walks <;> assumption

theorem getLast?_of_cons {step name : Text} (last : (step :: steps).getLast? = some name)
    (other : step ≠ name) : steps.getLast? = some name := by
  cases steps with
  | nil => exact absurd (Option.some.inj last) other
  | cons next rest => rwa [List.getLast?_cons_cons] at last

structure EndsIn (steps : List Text) (name : Text) : Prop where
  last : steps.getLast? = some name
  notDot : name ≠ dot
  notUp : name ≠ Path.up

theorem EndsIn.of_cons {step name : Text} (ends : EndsIn (step :: steps) name)
    (other : step ≠ name) : EndsIn steps name :=
  ⟨getLast?_of_cons ends.last other, ends.notDot, ends.notUp⟩

theorem EndsIn.tail {step name : Text} (ends : EndsIn (step :: steps) name)
    (inner : steps ≠ []) : EndsIn steps name := by
  obtain ⟨next, rest, rfl⟩ := List.exists_cons_of_ne_nil inner
  exact ⟨by rw [← ends.last, List.getLast?_cons_cons], ends.notDot, ends.notUp⟩

theorem EndsIn.behind {name : Text} (ends : EndsIn steps name) (before : List Text) :
    EndsIn (before ++ steps) name := by
  have some : steps ≠ [] := by
    rintro rfl
    cases ends.last
  exact ⟨by rw [List.getLast?_append_of_ne_nil _ some, ends.last], ends.notDot, ends.notUp⟩

theorem Walks.getLast?_place {name : Text} (walks : Walks tree false links start steps ending)
    (ends : EndsIn steps name) : ending.place.getLast? = some name := by
  induction walks with
  | arrived => cases ends.last
  | dot _ _ ih => exact ih (ends.of_cons (Ne.symm ends.notDot))
  | up _ _ ih => exact ih (ends.of_cons (Ne.symm ends.notUp))
  | free | link =>
    obtain rfl := Option.some.inj ends.last
    exact List.getLast?_concat
  | @along _ _ _ rest _ _ _ _ _ _ onward ih =>
    cases rest with
    | nil =>
      obtain rfl := Option.some.inj ends.last
      cases onward
      exact List.getLast?_concat
    | cons next rest => exact ih (ends.tail (by simp))
  | enter _ _ _ inner _ ih => exact ih ((ends.tail (by simpa using inner)).behind _)

end

section

variable {before after : FileTree}

def Destination.seenIn (tree : FileTree) : Destination → Destination
  | .found place node => .found place node
  | .free place =>
    match tree.node? place with
    | some node => .found place node
    | none => .free place

theorem Walks.seenIn {links : Nat} {start : Place} {steps : List Text} {ending : Destination}
    (kept : ∀ place node, before.node? place = some node → after.node? place = some node)
    (walks : Walks before false links start steps ending) :
    Walks after false links start steps (ending.seenIn after) := by
  induction walks with
  | arrived there => exact .arrived (kept _ _ there)
  | dot directory _ ih => exact .dot (kept _ _ directory) ih
  | up directory _ ih => exact .up (kept _ _ directory) ih
  | free directory name nothing =>
    unfold Destination.seenIn
    dsimp only
    split
    · rename_i node there
      cases node with
      | link target => exact .link (kept _ _ directory) name there rfl
      | directory | file => exact .along (kept _ _ directory) name there (by simp) (.arrived there)
    · rename_i nothing
      exact .free (kept _ _ directory) name nothing
  | along directory name there plain _ ih =>
    exact .along (kept _ _ directory) name (kept _ _ there) plain ih
  | link directory name there last => exact .link (kept _ _ directory) name (kept _ _ there) last
  | enter directory name there inner _ ih =>
    exact .enter (kept _ _ directory) name (kept _ _ there) inner ih

theorem locate_seenIn {path : Text} {ending : Destination} (here : after.here = before.here)
    (kept : ∀ place node, before.node? place = some node → after.node? place = some node)
    (located : before.locate false path = .ok ending) :
    after.locate false path = .ok (ending.seenIn after) := by
  obtain ⟨filled, short, walks⟩ := locate_eq_ok_iff.mp located
  rw [← here] at walks
  exact locate_eq_ok_iff.mpr ⟨filled, short, walks.seenIn kept⟩

end

section

variable {tree filled : FileTree} {free : Place} {file : Node}

def Destination.without (free : Place) : Destination → Destination
  | .found place node => if place = free then .free place else .found place node
  | .free place => .free place

theorem Destination.without_of_ne {ending : Destination} (apart : ending.place ≠ free) :
    ending.without free = ending := by
  cases ending with
  | found place node => exact if_neg apart
  | free place => rfl

theorem Filled.unfilled_walks {links : Nat} {start : Place} {steps : List Text} {name : Text}
    {ending : Destination} (fills : Filled tree filled free file) (notDirectory : file ≠ .directory)
    (walks : Walks filled false links start steps ending) (ends : EndsIn steps name) :
    Walks tree false links start steps (ending.without free) := by
  have still : ∀ {place node}, filled.node? place = some node → node ≠ file →
      tree.node? place = some node := by
    intro place node there other
    rw [← fills.elsewhere place ?_, there]
    rintro rfl
    rw [fills.there] at there
    exact other (Option.some.inj there).symm
  -- The node is no directory, so a walk meets it at its last step only.
  have directory : ∀ {place}, filled.node? place = some .directory →
      tree.node? place = some .directory := fun there => still there (Ne.symm notDirectory)
  induction walks with
  | arrived => cases ends.last
  | dot entered _ ih => exact .dot (directory entered) (ih (ends.of_cons (Ne.symm ends.notDot)))
  | up entered _ ih => exact .up (directory entered) (ih (ends.of_cons (Ne.symm ends.notUp)))
  | free entered named nothing =>
    refine .free (directory entered) named ?_
    rw [← fills.elsewhere _ ?_, nothing]
    intro same
    rw [same, fills.there] at nothing
    cases nothing
  | @link _ place step _ entered named there last =>
    have apart : place ++ [step] ≠ free := by
      rintro same
      rw [same, fills.there] at there
      exact fills.plain _ (Option.some.inj there)
    rw [Destination.without, if_neg apart]
    exact .link (directory entered) named (still there (Ne.symm (fills.plain _))) last
  | enter entered named there inner _ ih =>
    exact .enter (directory entered) named (still there (Ne.symm (fills.plain _))) inner
      (ih ((ends.tail (by simpa using inner)).behind _))
  | @along _ place step rest node _ entered named there plain onward ih =>
    cases rest with
    | nil =>
      cases onward with
      | arrived arrives =>
        by_cases same : place ++ [step] = free
        · rw [Destination.without, if_pos same]
          exact .free (directory entered) named (same ▸ fills.isFree.2)
        · rw [Destination.without, if_neg same]
          rw [fills.elsewhere _ same] at there arrives
          exact .along (directory entered) named there plain (.arrived arrives)
    | cons next rest =>
      have inside := onward.directory_of_cons
      have later := ih (ends.tail (by simp))
      exact .along (directory entered) named (directory inside) (by simp) later

theorem filled_removeNode {place : Place} (inner : place ≠ []) {node : Node}
    (there : tree.node? place = some node) (plain : ∀ target, node ≠ .link target) :
    Filled (tree.removeNode place) tree place node where
  isFree := ⟨inner, by rw [node?_removeNode inner, if_pos rfl]⟩
  plain := plain
  here := rfl
  there := there
  elsewhere := by
    intro other apart
    rw [node?_removeNode inner, if_neg apart]

theorem ne_nil_of_node? {place : Place} {node : Node} (there : tree.node? place = some node)
    (notDirectory : node ≠ .directory) : place ≠ [] := by
  rintro rfl
  exact notDirectory (Option.some.inj there).symm

/-- Removing the file that one path leads to changes where another one leads only if it was to the
    same file. -/
theorem locate_removeNode {path name : Text} {place : Place} {content : Bytes} {modified : Int}
    {ending : Destination} (there : tree.node? place = some (.file content modified))
    (ends : EndsIn (walkSteps path) name) (located : tree.locate false path = .ok ending) :
    (tree.removeNode place).locate false path = .ok (ending.without place) := by
  obtain ⟨named, short, walks⟩ := locate_eq_ok_iff.mp located
  have fills := filled_removeNode (ne_nil_of_node? there (by simp)) there (by simp)
  exact locate_eq_ok_iff.mpr ⟨named, short, fills.unfilled_walks (by simp) walks ends⟩

theorem walk_missing (through : Bool) (links : Nat) {above : Place} {step : Text}
    (directory : tree.node? above = some .directory) (name : IsNameStep step)
    (nothing : tree.node? (above ++ [step]) = none) (rest : List Text) :
    walk tree through links above (step :: rest) = .ok (.free (above ++ [step])) ∨
      walk tree through links above (step :: rest) = .error .noEntry := by
  have short := Nat.not_lt.mpr name.short
  cases rest with
  | nil =>
    left
    cases links <;> simp [walk, walkWith, directory, nothing, name.notDot, name.notUp, short]
  | cons next rest =>
    right
    cases links <;> simp [walk, walkWith, directory, nothing, name.notDot, name.notUp, short]

theorem walk_removeNode {links : Nat} {start place : Place} {steps : List Text} {node : Node}
    (walks : Walks tree false links start steps (.found place node))
    (notDirectory : node ≠ .directory) :
    walk (tree.removeNode place) false links start steps = .ok (.free place) ∨
      walk (tree.removeNode place) false links start steps = .error .noEntry := by
  have there : tree.node? place = some node := walks.isIn
  have removed : ∀ other, (tree.removeNode place).node? other =
      if other = place then none else tree.node? other :=
    node?_removeNode (ne_nil_of_node? there notDirectory)
  have still : ∀ {other}, tree.node? other = some .directory →
      (tree.removeNode place).node? other = some .directory := by
    intro other directory
    rw [removed, if_neg ?_, directory]
    rintro rfl
    rw [there] at directory
    exact notDirectory (Option.some.inj directory)
  have missing : ∀ {links above step}, tree.node? above = some .directory → IsNameStep step →
      above ++ [step] = place → ∀ rest,
        walk (tree.removeNode place) false links above (step :: rest) = .ok (.free place) ∨
          walk (tree.removeNode place) false links above (step :: rest) = .error .noEntry := by
    intro links above step directory name same rest
    have gone := removed (above ++ [step])
    rw [if_pos same] at gone
    subst same
    exact walk_missing false links (still directory) name gone rest
  generalize reached : Destination.found place node = ending at walks
  induction walks with
  | @arrived links =>
    obtain ⟨rfl, rfl⟩ := Destination.found.inj reached
    have gone := removed place
    rw [if_pos rfl] at gone
    cases links <;> exact .inr (by simp [walk, walkWith, gone])
  | @dot links _ _ _ directory _ ih =>
    cases links <;> simpa [walk, walkWith, still directory] using ih reached
  | @up links _ _ _ directory _ ih =>
    cases links <;>
      simpa [walk, walkWith, still directory, FileTree.dot, Path.up] using ih reached
  | free => cases reached
  | @along links above step rest other _ directory name next plain _ ih =>
    by_cases same : above ++ [step] = place
    · exact missing directory name same rest
    · have short := Nat.not_lt.mpr name.short
      have kept := removed (above ++ [step])
      rw [if_neg same, next] at kept
      cases other with
      | link target => exact absurd rfl (plain target)
      | directory | file =>
        cases links <;>
          simpa [walk, walkWith, still directory, kept, name.notDot, name.notUp, short] using
            ih reached
  | @link links above step target directory name next last =>
    obtain ⟨same, _⟩ := Destination.found.inj reached
    exact missing directory name same.symm []
  | @enter links above step target rest _ directory name next inner _ ih =>
    by_cases same : above ++ [step] = place
    · exact missing directory name same rest
    · have short := Nat.not_lt.mpr name.short
      have kept := removed (above ++ [step])
      rw [if_neg same, next] at kept
      have filled : rest.isEmpty = false := by simpa using inner
      simpa [walk, walkWith, still directory, kept, name.notDot, name.notUp, short, filled] using
        ih reached

theorem remove_remove {path : Text} {after : FileTree} (removed : tree.remove path = .ok after) :
    after.remove path = .ok after := by
  have again := removed
  unfold remove at removed
  split at removed
  · cases removed
  · rename_i plain
    split at removed
    · cases removed
    · rename_i place node notDirectory located
      cases removed
      obtain ⟨named, short, walks⟩ := locate_eq_ok_iff.mp located
      have other : node ≠ .directory := by
        rintro rfl
        exact notDirectory rfl
      have gone := walk_removeNode walks other
      have led : (tree.removeNode place).locate false path =
          walk (tree.removeNode place) false maxLinks
            (if startsWith path ['/'] then [] else tree.here) (walkSteps path) := by
        rw [locate, named, if_neg (by simp), if_neg (Nat.not_lt.mpr short)]
        rfl
      unfold remove
      rw [if_neg plain, led]
      rcases gone with free | missing
      · rw [free]
      · rw [missing]
    · cases removed
      exact again
    · cases removed
      exact again
    · cases removed

end

end FileTree

end TemplateTypes
