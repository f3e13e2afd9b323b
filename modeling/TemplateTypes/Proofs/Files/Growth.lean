import TemplateTypes.Proofs.Files.Places

namespace TemplateTypes

open Text

/-- A file may take the place of a file, and else nothing but the node itself. -/
inductive Node.Kin : Node → Node → Prop
  | same (node : Node) : Kin node node
  | file (content other : Bytes) (modified later : Int) :
    Kin (.file content modified) (.file other later)

theorem Node.Kin.trans {first second third : Node} (one : Kin first second)
    (two : Kin second third) : Kin first third := by
  cases one with
  | same => exact two
  | file content other modified later => cases two <;> exact .file ..

namespace FileTree

/-- What was there is there still, and there are no new links. -/
structure Grown (before after : FileTree) : Prop where
  here : after.here = before.here
  stays : ∀ place node, before.node? place = some node →
    ∃ other, after.node? place = some other ∧ node.Kin other
  links : ∀ place, after.target? place = before.target? place

section

variable {before after : FileTree}

theorem Grown.refl (tree : FileTree) : Grown tree tree :=
  ⟨rfl, fun _ node there => ⟨node, there, .same node⟩, fun _ => rfl⟩

theorem Grown.trans {last : FileTree} (one : Grown before after) (two : Grown after last) :
    Grown before last := by
  refine ⟨two.here.trans one.here, fun place node there => ?_,
    fun place => (two.links place).trans (one.links place)⟩
  obtain ⟨other, still, kin⟩ := one.stays place node there
  obtain ⟨final, now, kin'⟩ := two.stays place other still
  exact ⟨final, now, kin.trans kin'⟩

theorem Grown.directory (grown : Grown before after) {place : Place}
    (there : before.node? place = some .directory) : after.node? place = some .directory := by
  obtain ⟨other, still, kin⟩ := grown.stays place _ there
  cases kin
  exact still

theorem Grown.link (grown : Grown before after) {place : Place} {target : Text}
    (there : before.node? place = some (.link target)) :
    after.node? place = some (.link target) := by
  rw [← target?_eq_some, grown.links, target?_eq_some, there]

theorem grown_setNode {place : Place} {node : Node} (inner : place ≠ [])
    (plain : node.target? = none) (kin : ∀ old, before.node? place = some old → old.Kin node) :
    Grown before (before.setNode place node) := by
  refine ⟨rfl, fun other old there => ?_, fun other => ?_⟩
  · rw [node?_setNode inner]
    by_cases same : other = place
    · exact ⟨node, if_pos same, kin old (same ▸ there)⟩
    · exact ⟨old, by rw [if_neg same, there], .same old⟩
  · unfold target?
    rw [node?_setNode inner]
    by_cases same : other = place
    · rw [if_pos same, same]
      cases there : before.node? place with
      | none => exact plain
      | some old =>
        cases kin old there with
        | same => rfl
        | file => rfl
    · rw [if_neg same]

theorem Grown.walks (grown : Grown before after) {through : Bool} {links : Nat}
    {place start : Place} {steps : List Text} {node : Node}
    (walks : Walks before through links start steps (.found place node)) :
    ∃ other, Walks after through links start steps (.found place other) := by
  generalize reached : Destination.found place node = ending at walks
  induction walks with
  | arrived there =>
    obtain ⟨rfl, rfl⟩ := Destination.found.inj reached
    obtain ⟨other, still, _⟩ := grown.stays _ _ there
    exact ⟨other, .arrived still⟩
  | dot directory _ ih =>
    obtain ⟨other, onward⟩ := ih reached
    exact ⟨other, .dot (grown.directory directory) onward⟩
  | up directory _ ih =>
    obtain ⟨other, onward⟩ := ih reached
    exact ⟨other, .up (grown.directory directory) onward⟩
  | free => cases reached
  | along directory name there plain _ ih =>
    obtain ⟨other, onward⟩ := ih reached
    obtain ⟨next, still, kin⟩ := grown.stays _ _ there
    have plainNext : ∀ target, next ≠ .link target := by
      rintro target rfl
      cases kin
      exact plain target rfl
    exact ⟨other, .along (grown.directory directory) name still plainNext onward⟩
  | link directory name there last =>
    obtain ⟨rfl, rfl⟩ := Destination.found.inj reached
    exact ⟨_, .link (grown.directory directory) name (grown.link there) last⟩
  | enter directory name there inner _ ih =>
    obtain ⟨other, onward⟩ := ih reached
    exact ⟨other, .enter (grown.directory directory) name (grown.link there) inner onward⟩

def Names (tree : FileTree) (path : Text) (place : Place) : Prop :=
  ∃ through node, tree.locate through path = .ok (.found place node)

theorem Names.grown {path : Text} {place : Place} (names : before.Names path place)
    (grown : Grown before after) : after.Names path place := by
  obtain ⟨through, node, located⟩ := names
  obtain ⟨filled, short, walks⟩ := locate_eq_ok_iff.mp located
  rw [← grown.here] at walks
  obtain ⟨other, walks⟩ := grown.walks walks
  exact ⟨through, other, locate_eq_ok_iff.mpr ⟨filled, short, walks⟩⟩

/-- The tree has grown, and new entries and contents were written under paths with a property. -/
structure WrittenUnder (P : Text → Prop) (before after : FileTree) : Prop
    extends Grown before after where
  written : ∀ place node, after.node? place = some node → before.node? place ≠ some node →
    ∃ path, P path ∧ after.Names path place

variable {P : Text → Prop}

theorem WrittenUnder.refl (P : Text → Prop) (tree : FileTree) : WrittenUnder P tree tree :=
  ⟨.refl tree, fun _ _ there other => absurd there other⟩

theorem WrittenUnder.trans {last : FileTree} (one : WrittenUnder P before after)
    (two : WrittenUnder P after last) : WrittenUnder P before last := by
  refine ⟨one.toGrown.trans two.toGrown, fun place node there other => ?_⟩
  by_cases between : after.node? place = some node
  · obtain ⟨path, holds, names⟩ := one.written place node between other
    exact ⟨path, holds, names.grown two.toGrown⟩
  · exact two.written place node there between

theorem writtenUnder_setNode {path : Text} {place : Place} {node : Node}
    (grown : Grown before (before.setNode place node)) (inner : place ≠ [])
    (names : (before.setNode place node).Names path place) (holds : P path) :
    WrittenUnder P before (before.setNode place node) := by
  refine ⟨grown, fun other new now changed => ?_⟩
  rw [node?_setNode inner] at now
  by_cases same : other = place
  · exact ⟨path, holds, same ▸ names⟩
  · rw [if_neg same] at now
    exact absurd now changed

theorem writtenUnder_of_free {through : Bool} {path : Text} {place : Place} {node : Node}
    (located : before.locate through path = .ok (.free place)) (plain : ∀ target, node ≠ .link target)
    (holds : P path) : WrittenUnder P before (before.setNode place node) := by
  obtain ⟨inner, free⟩ := isFree_of_locate located
  have noTarget : node.target? = none := by
    cases node with
    | link target => exact absurd rfl (plain target)
    | directory | file => rfl
  have grown : Grown before (before.setNode place node) :=
    grown_setNode inner noTarget fun old there => by rw [free] at there; cases there
  exact writtenUnder_setNode grown inner
    ⟨through, node, (filled_setNode ⟨inner, free⟩ plain).locate_found located⟩ holds

theorem writtenUnder_of_makeDirectory {path : Text} (made : before.makeDirectory path = .ok after)
    (holds : '\x00' ∉ path → P path) : WrittenUnder P before after := by
  unfold makeDirectory at made
  split at made
  · cases made
  · rename_i plain
    split at made
    · rename_i located
      cases made
      exact writtenUnder_of_free located (fun _ => Node.noConfusion) (holds (by simpa using plain))
    · cases made
    · cases made

theorem writtenUnder_of_ensureDirectory {path : Text}
    (made : before.ensureDirectory path = .ok after) (holds : '\x00' ∉ path → P path) :
    WrittenUnder P before after := by
  unfold ensureDirectory at made
  split at made
  · split at made
    · cases made
      exact .refl P _
    · cases made
  · exact writtenUnder_of_makeDirectory made holds

theorem writtenUnder_growDirectories (tree : FileTree) (root : Text) (steps : List Text)
    (holds : ∀ start, start <+: steps.reverse → '\x00' ∉ Path.toText ⟨root, start⟩ →
      P (Path.toText ⟨root, start⟩)) :
    WrittenUnder P tree (tree.growDirectories root steps).2 := by
  induction steps with
  | nil =>
    unfold growDirectories
    split
    · rename_i made
      exact writtenUnder_of_ensureDirectory made (holds [] List.prefix_rfl)
    · exact .refl P tree
  | cons step above ih =>
    have shorter := ih fun start begins =>
      holds start (begins.trans (by rw [List.reverse_cons]; exact List.prefix_append _ _))
    have whole := holds _ List.prefix_rfl
    unfold growDirectories
    dsimp only
    split
    · rename_i made
      exact writtenUnder_of_ensureDirectory made whole
    · split
      · rename_i grown first
        rw [first] at shorter
        split
        · rename_i made
          exact shorter.trans (writtenUnder_of_ensureDirectory made whole)
        · exact shorter
      · exact shorter
    · exact .refl P tree

theorem writtenUnder_put {path : Text} (content : Bytes) (modified : Int)
    (holds : '\x00' ∉ path → P path) :
    WrittenUnder P before (before.put path content modified).2 := by
  rcases put_cases before path content modified with ⟨_, outcome⟩ | ⟨place, plain, takes, outcome⟩
  · rw [outcome]
    exact .refl P before
  · have own : P path := holds (by simpa using plain)
    have changed : ∀ part, WrittenUnder P before (before.setNode place (.file part modified)) := by
      intro part
      cases takes with
      | file old time located =>
        have there : before.node? place = some (.file old time) := locate_isIn located
        have inner : place ≠ [] := by
          rintro rfl
          cases there
        have grown : Grown before (before.setNode place (.file part modified)) := by
          refine grown_setNode inner rfl fun node known => ?_
          obtain rfl := Option.some.inj (there.symm.trans known)
          exact .file ..
        exact writtenUnder_setNode grown inner (Names.grown ⟨_, _, located⟩ grown) own
      | free located => exact writtenUnder_of_free located (fun _ => Node.noConfusion) own
    rw [outcome]
    rcases fill_cases before place content modified with whole | ⟨part, short⟩
    · rw [whole]
      exact changed content
    · rw [short]
      exact changed part

end

theorem node?_of_remove {tree after : FileTree} {path : Text} {place : Place} {node : Node}
    (removed : tree.remove path = .ok after) (there : after.node? place = some node) :
    tree.node? place = some node := by
  have gone : ∀ other, (tree.removeNode other).node? place = some node →
      tree.node? place = some node := by
    intro other there
    by_cases inner : place = []
    · rw [inner] at there ⊢
      exact there
    · rw [node?_of_ne_nil inner, removeNode, lookup_filter_ne] at there
      split at there
      · cases there
      · rw [node?_of_ne_nil inner, there]
  unfold remove at removed
  split at removed
  · cases removed
  · split at removed
    · cases removed
    · cases removed
      exact gone _ there
    · cases removed
      exact there
    · cases removed
      exact there
    · cases removed

end FileTree

end TemplateTypes
