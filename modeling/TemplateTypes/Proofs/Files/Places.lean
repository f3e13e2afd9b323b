import TemplateTypes.Proofs.Files.Path
import TemplateTypes.Proofs.Files.Tree

namespace TemplateTypes

open Text

def IsEntryName (name : Text) : Prop :=
  name ≠ [] ∧ '/' ∉ name ∧ '\x00' ∉ name ∧ name ≠ FileTree.dot ∧ name ≠ Path.up

instance : DecidablePred IsEntryName := fun _ => inferInstanceAs (Decidable (_ ∧ _))

def IsNamed (place : Place) : Prop := ∀ name ∈ place, IsEntryName name

instance : DecidablePred IsNamed := fun place => inferInstanceAs (Decidable (∀ name ∈ place, _))

theorem isEntryName_of_mem_stepsOf {t step : Text} (plain : '\x00' ∉ t)
    (member : step ∈ Path.stepsOf t) (onward : step ≠ Path.up) : IsEntryName step := by
  obtain ⟨noSlash, nonempty, notDot⟩ := (Path.proper_ofText t).steps step member
  have whole : step ∈ pieces '/' t := (List.mem_filter.mp member).1
  have inside : '\x00' ∉ step := fun inside =>
    plain (join_pieces '/' t ▸ mem_join_of_mem whole inside)
  exact ⟨nonempty, noSlash, inside, notDot, onward⟩

section

variable {place other : Place}

theorem isNamed_nil : IsNamed [] := fun _ member => by cases member

theorem IsNamed.of_isPrefix (named : IsNamed place) (start : other <+: place) : IsNamed other :=
  fun name member => named name (start.subset member)

theorem IsNamed.append (named : IsNamed place) (others : IsNamed other) :
    IsNamed (place ++ other) := by
  intro name member
  rcases List.mem_append.mp member with member | member
  · exact named name member
  · exact others name member

theorem IsNamed.child {name : Text} (named : IsNamed place) (entry : IsEntryName name) :
    IsNamed (place ++ [name]) :=
  named.append fun _ member => List.mem_singleton.mp member ▸ entry

theorem IsNamed.not_mem_up (named : IsNamed place) : Path.up ∉ place :=
  fun member => (named _ member).2.2.2.2 rfl

theorem IsNamed.proper (named : IsNamed place) : (Path.mk ['/'] place).Proper where
  root := .inr (.inl rfl)
  steps := fun name member =>
    ⟨(named name member).2.1, (named name member).1, (named name member).2.2.2.1⟩

end

namespace FileTree

variable {place : Place}

theorem startsWith_placeText (place : Place) : startsWith (placeText place) ['/'] = true := by
  simp [placeText, Path.toText, startsWith, List.isPrefixOf]

theorem ofText_placeText (named : IsNamed place) : Path.ofText (placeText place) = ⟨['/'], place⟩ := by
  cases place with
  | nil => rfl
  | cons name more => exact named.proper.ofText_toText (by simp)

theorem stepsOf_placeText (named : IsNamed place) : Path.stepsOf (placeText place) = place :=
  congrArg Path.steps (ofText_placeText named)

theorem nul_not_mem_placeText (named : IsNamed place) : '\x00' ∉ placeText place := by
  intro inside
  simp only [placeText, Path.toText, List.isEmpty_cons, Bool.false_and, Bool.false_eq_true,
    ↓reduceIte, List.singleton_append] at inside
  rcases List.mem_cons.mp inside with slash | inside
  · exact absurd slash (by decide)
  · rcases mem_of_mem_join inside with slash | ⟨name, member, own⟩
    · exact absurd slash (by decide)
    · exact (named name member).2.2.1 own

theorem placeText_concat (place : Place) (name : Text) :
    ∃ before, placeText (place ++ [name]) = before ++ '/' :: name := by
  cases place with
  | nil => exact ⟨[], rfl⟩
  | cons first more =>
    refine ⟨'/' :: (first ++ more.flatMap (['/'] ++ ·)), ?_⟩
    simp [placeText, Path.toText, join_cons]

theorem walkSteps_placeText (named : IsNamed place) :
    walkSteps (placeText place) = if place = [] then [dot] else place := by
  rcases List.eq_nil_or_concat' place with rfl | ⟨above, name, rfl⟩
  · rfl
  · obtain ⟨before, ending⟩ := placeText_concat above name
    obtain ⟨nonempty, noSlash, _, notDot, _⟩ := named name (by simp)
    have ends : (endsWith (placeText (above ++ [name])) ['/'] ||
        endsWith (placeText (above ++ [name])) ['/', '.']) = false := by
      rw [ending]
      rcases List.eq_nil_or_concat' name with rfl | ⟨front, last, rfl⟩
      · exact absurd rfl nonempty
      have lastName : last ≠ '/' := by
        rintro rfl
        exact noSlash (by simp)
      rcases List.eq_nil_or_concat' front with rfl | ⟨front, second, rfl⟩
      · have other : last ≠ '.' := by
          rintro rfl
          exact notDot rfl
        simp [endsWith, List.isPrefixOf, Ne.symm lastName, Ne.symm other]
      · have secondName : second ≠ '/' := by
          rintro rfl
          exact noSlash (by simp)
        simp [endsWith, List.isPrefixOf, Ne.symm lastName, Ne.symm secondName]
    rw [walkSteps, stepsOf_placeText named, ends]
    simp

end FileTree

def Node.target? : Node → Option Text
  | .link target => some target
  | _ => none

/-- The entries of a tree stand in directories and have names, links lead to texts without NUL, and
    relative paths start from a directory. -/
structure FileTree.Kept (tree : FileTree) : Prop where
  named : ∀ entry ∈ tree.nodes, IsNamed entry.1
  held : ∀ entry ∈ tree.nodes, tree.node? entry.1.dropLast = some .directory
  targets : ∀ entry ∈ tree.nodes, ∀ target ∈ entry.2.target?, '\x00' ∉ target
  here : tree.node? tree.here = some .directory

namespace FileTree

def target? (tree : FileTree) (place : Place) : Option Text := (tree.node? place).bind Node.target?

variable {tree : FileTree} {place other : Place} {node : Node}

theorem node?_nil (tree : FileTree) : tree.node? [] = some .directory := rfl

theorem mem_nodes (inner : place ≠ []) (there : tree.node? place = some node) :
    (place, node) ∈ tree.nodes := by
  rw [node?_of_ne_nil inner] at there
  obtain ⟨before, after, nodes, _⟩ := List.lookup_eq_some_iff.mp there
  simp [nodes]

theorem target?_eq_some {target : Text} :
    tree.target? place = some target ↔ tree.node? place = some (.link target) := by
  unfold target?
  cases tree.node? place with
  | none => simp
  | some node => cases node <;> simp [Node.target?]

theorem target?_eq_none (unlinked : ∀ entry ∈ tree.nodes, entry.2.target? = none) (place : Place) :
    tree.target? place = none := by
  cases there : tree.target? place with
  | none => rfl
  | some target =>
    have link := target?_eq_some.mp there
    have inner : place ≠ [] := by
      rintro rfl
      cases link
    have noTarget := unlinked _ (mem_nodes inner link)
    cases noTarget

theorem Kept.isNamed (kept : tree.Kept) (there : tree.node? place = some node) :
    IsNamed place := by
  by_cases root : place = []
  · exact root ▸ isNamed_nil
  · exact kept.named _ (mem_nodes root there)

theorem Kept.directory (kept : tree.Kept) (there : tree.node? place = some node)
    (start : other <+: place) (above : other ≠ place) : tree.node? other = some .directory := by
  induction place using List.reverseRecOn generalizing node with
  | nil => exact absurd (List.prefix_nil.mp start) above
  | append_singleton front name ih =>
    have parent : tree.node? front = some .directory := by
      simpa using kept.held _ (mem_nodes (by simp) there)
    rcases List.prefix_concat_iff.mp start with same | start
    · exact absurd same above
    · by_cases same : other = front
      · exact same ▸ parent
      · exact ih parent start same

theorem Kept.setNode (kept : tree.Kept) (free : tree.IsFree place) (named : IsNamed place)
    (parent : tree.node? place.dropLast = some .directory)
    (plain : ∀ target ∈ node.target?, '\x00' ∉ target) : (tree.setNode place node).Kept := by
  have still : ∀ other, tree.node? other = some .directory →
      (tree.setNode place node).node? other = some .directory := by
    intro other directory
    rw [node?_setNode free.1, if_neg, directory]
    rintro rfl
    rw [free.2] at directory
    cases directory
  have cases_of : ∀ entry ∈ (tree.setNode place node).nodes,
      entry ∈ tree.nodes ∨ entry = (place, node) := by
    intro entry member
    rcases List.mem_append.mp member with old | new
    · exact .inl (List.mem_filter.mp old).1
    · exact .inr (List.mem_singleton.mp new)
  constructor
  · intro entry member
    rcases cases_of entry member with old | rfl
    · exact kept.named entry old
    · exact named
  · intro entry member
    rcases cases_of entry member with old | rfl
    · exact still _ (kept.held entry old)
    · exact still _ parent
  · intro entry member
    rcases cases_of entry member with old | rfl
    · exact kept.targets entry old
    · exact plain
  · exact still _ kept.here

end FileTree

end TemplateTypes
