import TemplateTypes.Files.Tree

namespace TemplateTypes.FileTree

open Text

section

variable {tree : FileTree} {place other : Place}

theorem lookup_filter_ne (nodes : List (Place × Node)) (place other : Place) :
    (nodes.filter (·.1 != place)).lookup other =
      if other = place then none else nodes.lookup other := by
  induction nodes with
  | nil => simp
  | cons entry more ih =>
    obtain ⟨here, node⟩ := entry
    rw [List.filter_cons]
    by_cases removed : here = place
    · simp only [removed, bne_self_eq_false, Bool.false_eq_true, ↓reduceIte, ih]
      by_cases same : other = place
      · simp [same]
      · simp [List.lookup_cons, same, beq_eq_false_iff_ne.mpr same]
    · simp only [bne_iff_ne, ne_eq, removed, not_false_eq_true, ↓reduceIte, List.lookup_cons, ih]
      by_cases found : other = here
      · simp [found, removed]
      · simp [beq_eq_false_iff_ne.mpr found]

theorem node?_of_ne_nil (inner : place ≠ []) : tree.node? place = tree.nodes.lookup place := by
  simp [node?, inner]

theorem node?_setNode (inner : place ≠ []) (node : Node) (other : Place) :
    (tree.setNode place node).node? other =
      if other = place then some node else tree.node? other := by
  by_cases root : other = []
  · subst root
    simp [node?, Ne.symm inner]
  · rw [node?_of_ne_nil root, node?_of_ne_nil root, setNode, List.lookup_append, lookup_filter_ne]
    by_cases same : other = place
    · simp [same]
    · simp [List.lookup_cons, same, beq_eq_false_iff_ne.mpr same]

theorem node?_removeNode (inner : place ≠ []) (other : Place) :
    (tree.removeNode place).node? other = if other = place then none else tree.node? other := by
  by_cases root : other = []
  · subst root
    simp [node?, Ne.symm inner]
  · rw [node?_of_ne_nil root, node?_of_ne_nil root, removeNode, lookup_filter_ne]

end

/-- A step that names an entry of the directory it is taken in. -/
structure IsNameStep (step : Text) : Prop where
  notDot : step ≠ dot
  notUp : step ≠ Path.up
  short : (Utf8.encode step).length ≤ maxName

/-- A walk that comes to an end, step by step, and passes at most `links` links. -/
inductive Walks (tree : FileTree) (through : Bool) :
    (links : Nat) → Place → List Text → Destination → Prop
  | arrived {links : Nat} {place : Place} {node : Node} (there : tree.node? place = some node) :
    Walks tree through links place [] (.found place node)
  | dot {links : Nat} {place : Place} {rest : List Text} {ending : Destination}
    (directory : tree.node? place = some .directory)
    (onward : Walks tree through links place rest ending) :
    Walks tree through links place (dot :: rest) ending
  | up {links : Nat} {place : Place} {rest : List Text} {ending : Destination}
    (directory : tree.node? place = some .directory)
    (onward : Walks tree through links place.dropLast rest ending) :
    Walks tree through links place (Path.up :: rest) ending
  | free {links : Nat} {place : Place} {step : Text}
    (directory : tree.node? place = some .directory) (name : IsNameStep step)
    (nothing : tree.node? (place ++ [step]) = none) :
    Walks tree through links place [step] (.free (place ++ [step]))
  | along {links : Nat} {place : Place} {step : Text} {rest : List Text} {node : Node}
    {ending : Destination} (directory : tree.node? place = some .directory)
    (name : IsNameStep step) (there : tree.node? (place ++ [step]) = some node)
    (plain : ∀ target, node ≠ .link target)
    (onward : Walks tree through links (place ++ [step]) rest ending) :
    Walks tree through links place (step :: rest) ending
  | link {links : Nat} {place : Place} {step target : Text}
    (directory : tree.node? place = some .directory) (name : IsNameStep step)
    (there : tree.node? (place ++ [step]) = some (.link target)) (last : through = false) :
    Walks tree through links place [step] (.found (place ++ [step]) (.link target))
  | enter {links : Nat} {place : Place} {step target : Text} {rest : List Text}
    {ending : Destination} (directory : tree.node? place = some .directory)
    (name : IsNameStep step) (there : tree.node? (place ++ [step]) = some (.link target))
    (inner : (rest.isEmpty && !through) = false)
    (onward : Walks tree through links (if startsWith target ['/'] then [] else place)
      (walkSteps target ++ rest) ending) :
    Walks tree through (links + 1) place (step :: rest) ending

section

variable {tree : FileTree} {through : Bool}

theorem walks_of_walkWith {links : Nat} {enter : Place → List Text → Except Errno Destination}
    (entered : ∀ place step target rest ending, tree.node? place = some .directory →
      IsNameStep step → tree.node? (place ++ [step]) = some (.link target) →
      (rest.isEmpty && !through) = false →
      enter (if startsWith target ['/'] then [] else place) (walkSteps target ++ rest) = .ok ending →
      Walks tree through links place (step :: rest) ending)
    (steps : List Text) {start : Place} {ending : Destination}
    (walked : walkWith tree through enter start steps = .ok ending) :
    Walks tree through links start steps ending := by
  induction steps generalizing start with
  | nil =>
    unfold walkWith at walked
    split at walked
    · rename_i there
      cases walked
      exact .arrived there
    · cases walked
  | cons step rest ih =>
    unfold walkWith at walked
    split at walked
    · rename_i directory
      by_cases isDot : step = dot
      · rw [if_pos (by simp [isDot])] at walked
        exact isDot ▸ .dot directory (ih walked)
      rw [if_neg (by simpa using isDot)] at walked
      by_cases isUp : step = Path.up
      · rw [if_pos (by simp [isUp])] at walked
        exact isUp ▸ .up directory (ih walked)
      rw [if_neg (by simpa using isUp)] at walked
      split at walked
      · cases walked
      rename_i short
      have name : IsNameStep step := ⟨isDot, isUp, Nat.le_of_not_lt short⟩
      dsimp only at walked
      split at walked
      · rename_i nothing
        split at walked
        · rename_i last
          obtain rfl := List.isEmpty_iff.mp last
          cases walked
          exact .free directory name nothing
        · cases walked
      · rename_i there
        split at walked
        · rename_i last
          obtain ⟨done, stays⟩ := Bool.and_eq_true_iff.mp last
          obtain rfl := List.isEmpty_iff.mp done
          cases walked
          exact .link directory name there (by simpa using stays)
        · rename_i inner
          exact entered _ _ _ _ _ directory name there (by simpa using inner) walked
      · rename_i node notLink there
        have plain : ∀ target, node ≠ .link target := fun target same => notLink target (same ▸ rfl)
        exact .along directory name there plain (ih walked)
    · cases walked
    · cases walked

theorem walks_of_walk {links : Nat} {start : Place} {steps : List Text} {ending : Destination}
    (walked : walk tree through links start steps = .ok ending) :
    Walks tree through links start steps ending := by
  induction links generalizing start steps ending with
  | zero => exact walks_of_walkWith (fun _ _ _ _ _ _ _ _ _ refused => by cases refused) steps walked
  | succ links ih =>
    refine walks_of_walkWith (fun _ _ _ _ _ directory name there inner entered => ?_) steps walked
    exact .enter directory name there inner (ih entered)

theorem Walks.walk_eq {links : Nat} {start : Place} {steps : List Text} {ending : Destination}
    (walks : Walks tree through links start steps ending) :
    walk tree through links start steps = .ok ending := by
  induction walks with
  | @arrived links _ _ there => cases links <;> simp [walk, walkWith, there]
  | @dot links _ _ _ directory _ ih => cases links <;> simpa [walk, walkWith, directory] using ih
  | @up links _ _ _ directory _ ih =>
    cases links <;> simpa [walk, walkWith, directory, FileTree.dot, Path.up] using ih
  | @free links _ _ directory name nothing =>
    have short := Nat.not_lt.mpr name.short
    cases links <;>
      simp [walk, walkWith, directory, nothing, name.notDot, name.notUp, short]
  | @along links _ _ _ node _ directory name there plain _ ih =>
    have short := Nat.not_lt.mpr name.short
    cases node with
    | link target => exact absurd rfl (plain target)
    | directory | file =>
      cases links <;>
        simpa [walk, walkWith, directory, there, name.notDot, name.notUp, short] using ih
  | @link links _ _ _ directory name there last =>
    have short := Nat.not_lt.mpr name.short
    cases links <;>
      simp [walk, walkWith, directory, there, name.notDot, name.notUp, short, last]
  | enter directory name there inner _ ih =>
    have short := Nat.not_lt.mpr name.short
    simpa [walk, walkWith, directory, there, name.notDot, name.notUp, short, inner] using ih

theorem walk_eq_ok_iff {links : Nat} {start : Place} {steps : List Text} {ending : Destination} :
    walk tree through links start steps = .ok ending ↔
      Walks tree through links start steps ending :=
  ⟨walks_of_walk, Walks.walk_eq⟩

theorem locate_eq_ok_iff {path : Text} {ending : Destination} :
    tree.locate through path = .ok ending ↔
      path.isEmpty = false ∧ (Utf8.encode path).length ≤ maxPath ∧
        Walks tree through maxLinks (if startsWith path ['/'] then [] else tree.here)
          (walkSteps path) ending := by
  unfold locate
  cases empty : path.isEmpty with
  | true => simp
  | false =>
    by_cases short : (Utf8.encode path).length ≤ maxPath
    · simp [short, Nat.not_lt.mpr short, walk_eq_ok_iff]
    · simp [short, Nat.lt_of_not_le short]

end

def IsFree (tree : FileTree) (place : Place) : Prop := place ≠ [] ∧ tree.node? place = none

section

variable {tree : FileTree}

def Destination.place : Destination → Place
  | .found place _ | .free place => place

def Destination.IsIn (tree : FileTree) : Destination → Prop
  | .found place node => tree.node? place = some node
  | .free place => tree.IsFree place

theorem Walks.isIn {through : Bool} {links : Nat} {start : Place} {steps : List Text}
    {ending : Destination} (walks : Walks tree through links start steps ending) :
    ending.IsIn tree := by
  induction walks with
  | arrived there => exact there
  | dot _ _ ih | up _ _ ih | along _ _ _ _ _ ih | enter _ _ _ _ _ ih => exact ih
  | free _ _ nothing => exact ⟨by simp, nothing⟩
  | link _ _ there _ => exact there

theorem walkWith_unentered {enter enterLast : Place → List Text → Except Errno Destination}
    (entered : ∀ start steps, enter start steps = enterLast start steps ∨
      ∃ place target, enter start steps = .ok (.found place (.link target)))
    (steps : List Text) (start : Place) :
    walkWith tree false enter start steps = walkWith tree true enterLast start steps ∨
      ∃ place target,
        walkWith tree false enter start steps = .ok (.found place (.link target)) := by
  induction steps generalizing start with
  | nil => exact .inl (by unfold walkWith; rfl)
  | cons step rest ih =>
    unfold walkWith
    split
    · split
      · exact ih start
      · split
        · exact ih start.dropLast
        · split
          · exact .inl rfl
          · dsimp only
            split
            · exact .inl rfl
            · rename_i target _
              cases last : rest.isEmpty with
              | true => exact .inr ⟨_, target, rfl⟩
              | false => exact entered _ _
            · exact ih _
    · exact .inl rfl
    · exact .inl rfl

theorem walk_unentered (links : Nat) (steps : List Text) (start : Place) :
    walk tree false links start steps = walk tree true links start steps ∨
      ∃ place target, walk tree false links start steps = .ok (.found place (.link target)) := by
  induction links generalizing start steps with
  | zero => exact walkWith_unentered (fun _ _ => .inl rfl) steps start
  | succ links ih => exact walkWith_unentered (fun start steps => ih steps start) steps start

/-- The second tree has a file or a directory at a name that is free in the first, and is the same
    elsewhere. -/
structure Filled (tree filled : FileTree) (free : Place) (file : Node) : Prop where
  isFree : tree.IsFree free
  plain : ∀ target, file ≠ .link target
  here : filled.here = tree.here
  there : filled.node? free = some file
  elsewhere : ∀ place, place ≠ free → filled.node? place = tree.node? place

theorem Filled.of_some {filled : FileTree} {free place : Place} {file node : Node}
    (fills : Filled tree filled free file) (known : tree.node? place = some node) :
    filled.node? place = some node := by
  rw [fills.elsewhere place ?_, known]
  rintro rfl
  rw [fills.isFree.2] at known
  cases known

theorem Filled.walks {filled : FileTree} {free start : Place} {file : Node}
    (fills : Filled tree filled free file) {through : Bool} {links : Nat} {steps : List Text}
    (walks : Walks tree through links start steps (.free free)) :
    Walks filled through links start steps (.found free file) := by
  generalize reached : Destination.free free = ending at walks
  induction walks with
  | arrived | link => cases reached
  | dot directory _ ih => exact .dot (fills.of_some directory) (ih reached)
  | up directory _ ih => exact .up (fills.of_some directory) (ih reached)
  | free directory name _ =>
    -- The free name is the last step: the new node is there now.
    obtain rfl := Destination.free.inj reached
    exact .along (fills.of_some directory) name fills.there fills.plain (.arrived fills.there)
  | along directory name there plain _ ih =>
    exact .along (fills.of_some directory) name (fills.of_some there) plain (ih reached)
  | enter directory name there inner _ ih =>
    exact .enter (fills.of_some directory) name (fills.of_some there) inner (ih reached)

theorem Filled.locate_found {filled : FileTree} {free : Place} {file : Node}
    (fills : Filled tree filled free file) {through : Bool} {path : Text}
    (located : tree.locate through path = .ok (.free free)) :
    filled.locate through path = .ok (.found free file) := by
  obtain ⟨named, short, walks⟩ := locate_eq_ok_iff.mp located
  rw [← fills.here] at walks
  exact locate_eq_ok_iff.mpr ⟨named, short, fills.walks walks⟩

theorem locate_isIn {through : Bool} {path : Text} {ending : Destination}
    (located : tree.locate through path = .ok ending) : ending.IsIn tree := by
  obtain ⟨_, _, walks⟩ := locate_eq_ok_iff.mp located
  exact walks.isIn

theorem isFree_of_locate {through : Bool} {path : Text} {free : Place}
    (located : tree.locate through path = .ok (.free free)) : tree.IsFree free :=
  locate_isIn located

theorem locate_unentered (path : Text) :
    tree.locate false path = tree.locate true path ∨
      ∃ place target, tree.locate false path = .ok (.found place (.link target)) := by
  unfold locate
  split
  · exact .inl rfl
  · split
    · exact .inl rfl
    · exact walk_unentered maxLinks _ _

theorem filled_setNode {free : Place} {node : Node} (isFree : tree.IsFree free)
    (plain : ∀ target, node ≠ .link target) :
    Filled tree (tree.setNode free node) free node where
  isFree := isFree
  plain := plain
  here := rfl
  there := by rw [node?_setNode isFree.1, if_pos rfl]
  elsewhere := fun place other => by rw [node?_setNode isFree.1, if_neg other]

/-- The second tree has another file where the first one has a file, and is the same elsewhere. -/
structure Rewritten (tree rewritten : FileTree) (place : Place) (old new : Bytes × Int) :
    Prop where
  here : rewritten.here = tree.here
  before : tree.node? place = some (.file old.1 old.2)
  behind : rewritten.node? place = some (.file new.1 new.2)
  elsewhere : ∀ other, other ≠ place → rewritten.node? other = tree.node? other

theorem Rewritten.of_some {rewritten : FileTree} {place other : Place} {old new : Bytes × Int}
    {node : Node} (rewrites : Rewritten tree rewritten place old new)
    (known : tree.node? other = some node)
    (noFile : ∀ content modified, node ≠ .file content modified) :
    rewritten.node? other = some node := by
  rw [rewrites.elsewhere other ?_, known]
  rintro rfl
  rw [rewrites.before] at known
  exact noFile _ _ (Option.some.inj known).symm

theorem Rewritten.walks {rewritten : FileTree} {place start : Place} {old new : Bytes × Int}
    (rewrites : Rewritten tree rewritten place old new) {through : Bool} {links : Nat}
    {steps : List Text}
    (walks : Walks tree through links start steps (.found place (.file old.1 old.2))) :
    Walks rewritten through links start steps (.found place (.file new.1 new.2)) := by
  have directory : ∀ {other}, tree.node? other = some .directory →
      rewritten.node? other = some .directory := fun known =>
    rewrites.of_some known fun _ _ => Node.noConfusion
  generalize reached : Destination.found place (.file old.1 old.2) = ending at walks
  induction walks with
  | arrived _ =>
    cases reached
    exact .arrived rewrites.behind
  | free | link => cases reached
  | dot entered _ ih => exact .dot (directory entered) (ih reached)
  | up entered _ ih => exact .up (directory entered) (ih reached)
  | @along _ before step _ _ _ entered name there plain _ ih =>
    by_cases own : before ++ [step] = place
    · exact .along (directory entered) name (own ▸ rewrites.behind) (fun _ => Node.noConfusion)
        (ih reached)
    · exact .along (directory entered) name ((rewrites.elsewhere _ own).trans there) plain
        (ih reached)
  | enter entered name there inner _ ih =>
    exact .enter (directory entered) name
      (rewrites.of_some there fun _ _ => Node.noConfusion) inner (ih reached)

theorem Rewritten.locate_found {rewritten : FileTree} {place : Place} {old new : Bytes × Int}
    (rewrites : Rewritten tree rewritten place old new) {through : Bool} {path : Text}
    (located : tree.locate through path = .ok (.found place (.file old.1 old.2))) :
    rewritten.locate through path = .ok (.found place (.file new.1 new.2)) := by
  obtain ⟨named, short, walks⟩ := locate_eq_ok_iff.mp located
  rw [← rewrites.here] at walks
  exact locate_eq_ok_iff.mpr ⟨named, short, rewrites.walks walks⟩

theorem rewritten_setNode {place : Place} {old : Bytes} {oldTime : Int}
    (known : tree.node? place = some (.file old oldTime)) (content : Bytes) (modified : Int) :
    Rewritten tree (tree.setNode place (.file content modified)) place (old, oldTime)
      (content, modified) := by
  have inner : place ≠ [] := by
    rintro rfl
    cases known
  exact ⟨rfl, known, by rw [node?_setNode inner, if_pos rfl], fun other apart => by
    rw [node?_setNode inner, if_neg apart]⟩

end

def HasEntry (tree : FileTree) (path : Text) : Prop :=
  ∃ place node, tree.locate false path = .ok (.found place node)

def OnlyDirectoriesAdded (before after : FileTree) : Prop :=
  ∀ place, after.node? place = before.node? place ∨
    before.node? place = none ∧ after.node? place = some .directory

theorem OnlyDirectoriesAdded.refl (tree : FileTree) : OnlyDirectoriesAdded tree tree :=
  fun _ => .inl rfl

theorem OnlyDirectoriesAdded.trans {first second third : FileTree}
    (one : OnlyDirectoriesAdded first second) (two : OnlyDirectoriesAdded second third) :
    OnlyDirectoriesAdded first third := by
  intro place
  rcases one place with same | ⟨nothing, directory⟩
  · rw [← same]
    exact two place
  · rcases two place with same | ⟨missing, _⟩
    · exact .inr ⟨nothing, same.trans directory⟩
    · rw [directory] at missing
      cases missing

section

variable {tree after : FileTree} {path : Text}

theorem onlyDirectoriesAdded_of_makeDirectory (made : tree.makeDirectory path = .ok after) :
    OnlyDirectoriesAdded tree after := by
  unfold makeDirectory at made
  split at made
  · cases made
  · split at made
    · rename_i place located
      obtain ⟨inner, nothing⟩ := isFree_of_locate located
      simp only [Except.ok.injEq] at made
      intro other
      rw [← made, node?_setNode inner]
      by_cases same : other = place
      · exact .inr ⟨same ▸ nothing, if_pos same⟩
      · exact .inl (if_neg same)
    · cases made
    · cases made

theorem onlyDirectoriesAdded_of_ensureDirectory (made : tree.ensureDirectory path = .ok after) :
    OnlyDirectoriesAdded tree after := by
  unfold ensureDirectory at made
  split at made
  · split at made
    · cases made
      exact .refl tree
    · cases made
  · exact onlyDirectoriesAdded_of_makeDirectory made

theorem onlyDirectoriesAdded_growDirectories (tree : FileTree) (root : Text)
    (steps : List Text) : OnlyDirectoriesAdded tree (tree.growDirectories root steps).2 := by
  induction steps with
  | nil =>
    unfold growDirectories
    split
    · rename_i made
      exact onlyDirectoriesAdded_of_ensureDirectory made
    · exact .refl tree
  | cons step above ih =>
    unfold growDirectories
    dsimp only
    split
    · rename_i made
      exact onlyDirectoriesAdded_of_ensureDirectory made
    · split
      · rename_i grown first
        rw [first] at ih
        split
        · rename_i made
          exact ih.trans (onlyDirectoriesAdded_of_ensureDirectory made)
        · exact ih
      · exact ih
    · exact .refl tree

theorem growDirectories_of_ensureDirectories {root : Text} {steps : List Text}
    (made : tree.ensureDirectories root steps = .ok after) :
    tree.growDirectories root steps = (.ok (), after) := by
  unfold ensureDirectories at made
  split at made
  · rename_i grown
    cases made
    exact grown
  · cases made

theorem onlyDirectoriesAdded_of_ensureDirectories {root : Text} {steps : List Text}
    (made : tree.ensureDirectories root steps = .ok after) : OnlyDirectoriesAdded tree after := by
  have grown := onlyDirectoriesAdded_growDirectories tree root steps
  rwa [growDirectories_of_ensureDirectories made] at grown

variable {content : Bytes} {modified : Int}

theorem fill_cases (tree : FileTree) (place : Place) (content : Bytes) (modified : Int) :
    tree.fill place content modified = (.ok (), tree.setNode place (.file content modified)) ∨
      ∃ part, tree.fill place content modified =
        (.error .noSpace, tree.setNode place (.file part modified)) := by
  unfold fill
  split
  · exact .inl rfl
  · dsimp only
    split
    · exact .inr ⟨_, rfl⟩
    · rename_i whole
      rw [List.take_of_length_le (Nat.le_of_not_lt whole)]
      exact .inl rfl

/-- Where a path leads when it is written to: to a file that is there, or to a free name. -/
inductive TakesFile (tree : FileTree) (path : Text) (place : Place) : Prop
  | file (old : Bytes) (time : Int)
    (located : tree.locate true path = .ok (.found place (.file old time)))
  | free (located : tree.locate true path = .ok (.free place))

theorem put_cases (tree : FileTree) (path : Text) (content : Bytes) (modified : Int) :
    (∃ e, tree.put path content modified = (.error e, tree)) ∨
      ∃ place, path.elem '\x00' = false ∧ tree.TakesFile path place ∧
        tree.put path content modified = tree.fill place content modified := by
  unfold put
  split
  · exact .inl ⟨_, rfl⟩
  · rename_i plain
    have plain := Bool.eq_false_iff.mpr plain
    split
    · rename_i place old time located
      exact .inr ⟨place, plain, .file old time located, rfl⟩
    · rename_i place located
      exact .inr ⟨place, plain, .free located, rfl⟩
    · exact .inl ⟨_, rfl⟩
    · exact .inl ⟨_, rfl⟩

theorem write_eq_ok_iff :
    tree.write path content modified = .ok after ↔
      tree.put path content modified = (.ok (), after) := by
  unfold write
  constructor
  · intro written
    split at written
    · rename_i put
      cases written
      exact put
    · cases written
  · intro put
    rw [put]

theorem setNode_of_write (written : tree.write path content modified = .ok after) :
    path.elem '\x00' = false ∧ ∃ place, tree.TakesFile path place ∧
      after = tree.setNode place (.file content modified) := by
  rw [write_eq_ok_iff] at written
  rcases put_cases tree path content modified with ⟨e, failed⟩ | ⟨place, plain, takes, outcome⟩
  · rw [failed] at written
    cases written
  · rw [outcome] at written
    rcases fill_cases tree place content modified with whole | ⟨part, short⟩
    · exact ⟨plain, place, takes, (Prod.mk.inj (written.symm.trans whole)).2⟩
    · rw [short] at written
      cases written

theorem filled_of_write (unused : ¬ tree.HasEntry path)
    (written : tree.write path content modified = .ok after) :
    path.elem '\x00' = false ∧ ∃ place, tree.locate false path = .ok (.free place) ∧
      tree.locate true path = .ok (.free place) ∧
      Filled tree after place (.file content modified) := by
  have sameWay : tree.locate false path = tree.locate true path := by
    rcases locate_unentered path with same | ⟨place, target, taken⟩
    · exact same
    · exact absurd ⟨place, _, taken⟩ unused
  obtain ⟨plain, place, file | located, rfl⟩ := setNode_of_write written
  · rename_i located
    exact absurd ⟨place, _, sameWay.trans located⟩ unused
  · exact ⟨plain, place, sameWay.trans located, located,
      filled_setNode (isFree_of_locate located) fun _ => Node.noConfusion⟩

theorem read_of_write (written : tree.write path content modified = .ok after) :
    after.read path = .ok (content, modified) := by
  obtain ⟨plain, place, file | located, rfl⟩ := setNode_of_write written
  · rename_i located
    have rewrites := rewritten_setNode (locate_isIn located) content modified
    simp only [read, status, plain, Bool.false_eq_true, ↓reduceIte,
      rewrites.locate_found located]
  · have fills : Filled tree (tree.setNode place (.file content modified)) place
        (.file content modified) :=
      filled_setNode (isFree_of_locate located) fun _ => Node.noConfusion
    simp only [read, status, plain, Bool.false_eq_true, ↓reduceIte, fills.locate_found located]

theorem remove_of_write (unused : ¬ tree.HasEntry path)
    (written : tree.write path content modified = .ok after) :
    ∃ removed, after.remove path = .ok removed ∧
      ∀ place, removed.node? place = tree.node? place := by
  obtain ⟨plain, place, located, _, filled⟩ := filled_of_write unused written
  refine ⟨after.removeNode place, ?_, fun other => ?_⟩
  · simp only [remove, plain, Bool.false_eq_true, ↓reduceIte, filled.locate_found located]
  · rw [node?_removeNode filled.isFree.1]
    by_cases same : other = place
    · rw [if_pos same, same, filled.isFree.2]
    · rw [if_neg same, filled.elsewhere other same]

end

section

variable {tree after : FileTree} {path : Text}

theorem here_put (content : Bytes) (modified : Int) :
    (tree.put path content modified).2.here = tree.here := by
  rcases put_cases tree path content modified with ⟨_, outcome⟩ | ⟨place, _, _, outcome⟩
  · rw [outcome]
  · rw [outcome]
    rcases fill_cases tree place content modified with whole | ⟨_, short⟩
    · rw [whole]
      rfl
    · rw [short]
      rfl

theorem here_of_remove (removed : tree.remove path = .ok after) : after.here = tree.here := by
  unfold remove at removed
  split at removed
  · cases removed
  · split at removed <;> cases removed <;> rfl

theorem kept_of_ensureDirectory (made : tree.ensureDirectory path = .ok after) :
    after.here = tree.here ∧ after.capacity = tree.capacity := by
  unfold ensureDirectory makeDirectory at made
  split at made
  · split at made <;> cases made
    exact ⟨rfl, rfl⟩
  · split at made
    · cases made
    · split at made <;> cases made
      exact ⟨rfl, rfl⟩

theorem kept_growDirectories (tree : FileTree) (root : Text) (steps : List Text) :
    (tree.growDirectories root steps).2.here = tree.here ∧
      (tree.growDirectories root steps).2.capacity = tree.capacity := by
  induction steps with
  | nil =>
    unfold growDirectories
    split
    · rename_i made
      exact kept_of_ensureDirectory made
    · exact ⟨rfl, rfl⟩
  | cons step above ih =>
    unfold growDirectories
    dsimp only
    split
    · rename_i made
      exact kept_of_ensureDirectory made
    · split
      · rename_i grown first
        rw [first] at ih
        split
        · rename_i made
          have last := kept_of_ensureDirectory made
          exact ⟨last.1.trans ih.1, last.2.trans ih.2⟩
        · exact ih
      · exact ih
    · exact ⟨rfl, rfl⟩

/-- A write at the path is all or nothing: one that fails has changed nothing. -/
def PutsWhole (tree : FileTree) (path : Text) (content : Bytes) (modified : Int) : Prop :=
  ∀ e after, tree.put path content modified = (.error e, after) → after = tree

theorem putsWhole_of_unbounded (unbounded : tree.capacity = none) (content : Bytes)
    (modified : Int) : tree.PutsWhole path content modified := by
  intro e after failed
  rcases put_cases tree path content modified with ⟨_, outcome⟩ | ⟨place, _, _, outcome⟩
  · exact (Prod.mk.inj (failed.symm.trans outcome)).2
  · rw [outcome, fill, unbounded] at failed
    cases failed

end

end TemplateTypes.FileTree
