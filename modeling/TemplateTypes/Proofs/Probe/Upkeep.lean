import Mathlib.Data.List.Nodup
import TemplateTypes.Proofs.Files.Removal
import TemplateTypes.Proofs.Probe.Lifetime

namespace TemplateTypes.Probe

open Text FileTree

def nameOf (path : Text) : Text := (Path.ofText path).name

structure IsProbePath (path : Text) : Prop where
  nonempty : path ≠ []
  readBack : (Path.ofText path).toText = path
  ends : EndsIn (walkSteps path) (nameOf path)
  plain : path.elem '\x00' = false

theorem IsProbePath.getLast?_place {files : FileTree} {path : Text} {ending : Destination}
    (isPath : IsProbePath path) (located : files.locate false path = .ok ending) :
    ending.place.getLast? = some (nameOf path) := by
  obtain ⟨_, _, walks⟩ := locate_eq_ok_iff.mp located
  exact walks.getLast?_place isPath.ends

theorem walkSteps_of_getLast? {t : Text} {c : Char} (last : t.getLast? = some c)
    (noSlash : c ≠ '/') (noDot : c ≠ '.') : walkSteps t = Path.stepsOf t := by
  obtain ⟨front, rfl⟩ := List.getLast?_eq_some_iff.mp last
  simp [walkSteps, endsWith, List.isPrefixOf, Ne.symm noSlash, Ne.symm noDot]

theorem join_concat (separator : Text) (parts : List Text) (last : Text) :
    ∃ before, join separator (parts ++ [last]) = before ++ last := by
  cases parts with
  | nil => exact ⟨[], rfl⟩
  | cons first more =>
    refine ⟨first ++ more.flatMap (separator ++ ·) ++ separator, ?_⟩
    simp [join_cons]

theorem walkSteps_nextPath {s : ProbeState} {scratch : Path} (proper : scratch.Proper) :
    walkSteps (nextPath s scratch).toText = scratch.steps ++ [fileName s.clock s.serial] := by
  have last : (nextPath s scratch).toText.getLast? = some 's' := by
    obtain ⟨before, ending⟩ := join_concat ['/'] scratch.steps (fileName s.clock s.serial)
    have whole : (nextPath s scratch).toText =
        scratch.root ++ before ++ fileName s.clock s.serial := by
      simp [nextPath, Path.child, Path.toText, ending]
    have name : fileName s.clock s.serial =
        namePart ++ ofNat s.clock ++ ['-'] ++ hex 8 s.serial ++ ".component.t".toList ++ ['s'] := by
      simp [fileName]
    rw [whole, name, ← List.append_assoc]
    exact List.getLast?_concat
  rw [walkSteps_of_getLast? last (by decide) (by decide)]
  exact congrArg Path.steps (ofText_nextPath proper)

theorem nameOf_nextPath {s : ProbeState} {scratch : Path} (proper : scratch.Proper) :
    nameOf (nextPath s scratch).toText = fileName s.clock s.serial := by
  rw [nameOf, ofText_nextPath proper, name_nextPath]

theorem isProbePath_nextPath {s : ProbeState} {scratch : Path} (proper : scratch.Proper)
    (plain : (nextPath s scratch).toText.elem '\x00' = false) :
    IsProbePath (nextPath s scratch).toText := by
  have readBack : (Path.ofText (nextPath s scratch).toText).toText =
      (nextPath s scratch).toText := by
    rw [ofText_nextPath proper]
  obtain ⟨rest, starts⟩ : ∃ rest, fileName s.clock s.serial = 't' :: rest := ⟨_, rfl⟩
  refine ⟨?_, readBack, ⟨?_, ?_, ?_⟩, plain⟩
  · intro empty
    rw [empty] at readBack
    exact absurd readBack (by decide)
  · rw [walkSteps_nextPath proper, nameOf_nextPath proper]
    exact List.getLast?_concat
  · rw [nameOf_nextPath proper, starts]
    simp [dot]
  · rw [nameOf_nextPath proper, starts]
    simp [Path.up]

/-- The next probe has a name of its own, and nothing in the scratch directory has it. -/
structure NextDistinct (folder : ProbeFolder) (s : ProbeState) (made : List Artifact) : Prop where
  name : ∀ a ∈ made, nameOf a.path ≠ fileName s.clock s.serial
  free : ∀ scratch grown, scratchPath folder s.files = .ok scratch →
    s.files.ensureDirectories scratch.root scratch.steps.reverse = .ok grown →
      ¬ grown.HasEntry (nextPath s scratch).toText

/-- The states of a manager, with all the artifacts it has made so far. Between its calls time goes
    on and anything may happen to the files, as long as the paths of its artifacts lead where they
    led before. -/
inductive Managed (folder : ProbeFolder) : ProbeState → List Artifact → Prop
  | start (files : FileTree) (clock serial : Nat) : Managed folder ⟨files, clock, serial, []⟩ []
  | elsewhere {s : ProbeState} {made : List Artifact} (files : FileTree) (clock serial : Nat)
      (managed : Managed folder s made)
      (apart : ∀ a ∈ made, files.locate false a.path = s.files.locate false a.path) :
      Managed folder { s with files, clock, serial } made
  | made {s after : ProbeState} {made : List Artifact} {template : Text}
      {host : Option ComponentHost} {artifact : Artifact} (managed : Managed folder s made)
      (distinct : NextDistinct folder s made)
      (result : materialize folder s template host = (.ok artifact, after)) :
      Managed folder after (made ++ [artifact])
  | refused {s after : ProbeState} {made : List Artifact} {template : Text}
      {host : Option ComponentHost} {e : MaterializeError} (managed : Managed folder s made)
      (whole : WritesWhole folder s template host)
      (result : materialize folder s template host = (.error e, after)) :
      Managed folder after made
  | dispose {s : ProbeState} {made : List Artifact} {path : Text} (managed : Managed folder s made)
      (own : path = [] ∨ ∃ a ∈ made, a.path = path) : Managed folder (dispose s path) made
  | disposeAll {s : ProbeState} {made : List Artifact} (managed : Managed folder s made) :
      Managed folder (disposeAll s) made

/-- What the path of an artifact leads to: its file while it is registered, and no file after
    that. -/
structure Traced (s : ProbeState) (a : Artifact) : Prop where
  path : IsProbePath a.path
  stands : a ∈ s.artifacts → ∃ place modified,
    s.files.locate false a.path = .ok (.found place (.file (Utf8.encode a.content) modified))
  gone : a ∉ s.artifacts → ∃ place,
    s.files.locate false a.path = .ok (.free place) ∨
      s.files.locate false a.path = .ok (.found place .directory)

structure Accounted (s : ProbeState) (made : List Artifact) : Prop where
  registered : s.artifacts.Sublist made
  distinct : (made.map fun a => nameOf a.path).Nodup
  each : ∀ a ∈ made, Traced s a

theorem NextDistinct.nextUnused {folder : ProbeFolder} {s : ProbeState} {made : List Artifact}
    (distinct : NextDistinct folder s made) (registered : s.artifacts.Sublist made) :
    NextUnused folder s := by
  refine ⟨?_, distinct.free⟩
  intro scratch located a member same
  apply distinct.name a (registered.subset member)
  rw [same, nameOf_nextPath (proper_scratchPath located)]

section

variable {folder : ProbeFolder} {s after : ProbeState} {template : Text}
  {host : Option ComponentHost} {artifact a : Artifact} {made : List Artifact}

/-- Entries have been added, and nothing but directories under any other name. -/
structure AddedUnder (name : Text) (before after : FileTree) : Prop where
  here : after.here = before.here
  kept : ∀ place node, before.node? place = some node → after.node? place = some node
  added : ∀ place node, before.node? place = none → after.node? place = some node →
    node = .directory ∨ place.getLast? = some name

theorem addedUnder_of_onlyDirectoriesAdded {before after : FileTree} (name : Text)
    (here : after.here = before.here) (only : OnlyDirectoriesAdded before after) :
    AddedUnder name before after := by
  refine ⟨here, ?_, ?_⟩
  · intro place node there
    rcases only place with same | ⟨nothing, _⟩
    · rw [same, there]
    · rw [there] at nothing
      cases nothing
  · intro place node nothing there
    rcases only place with same | ⟨_, directory⟩
    · rw [same, nothing] at there
      cases there
    · rw [directory] at there
      exact .inl (Option.some.inj there).symm

theorem addedUnder_of_filled {before grown after : FileTree} {place : Place} {node : Node}
    {name : Text} (here : after.here = before.here) (only : OnlyDirectoriesAdded before grown)
    (filled : Filled grown after place node) (last : place.getLast? = some name) :
    AddedUnder name before after := by
  have first := addedUnder_of_onlyDirectoriesAdded name (filled.here.symm.trans here) only
  refine ⟨here, fun place node there => filled.of_some (first.kept place node there), ?_⟩
  intro other new nothing there
  by_cases same : other = place
  · exact .inr (same ▸ last)
  · rw [filled.elsewhere other same] at there
    exact first.added other new nothing there

theorem Traced.of_added {name : Text} (traced : Traced s a)
    (added : AddedUnder name s.files after.files) (apart : nameOf a.path ≠ name)
    (same : a ∈ after.artifacts ↔ a ∈ s.artifacts) : Traced after a := by
  refine ⟨traced.path, ?_, ?_⟩
  · intro registered
    obtain ⟨place, modified, located⟩ := traced.stands (same.mp registered)
    exact ⟨place, modified, locate_seenIn added.here added.kept located⟩
  · intro missing
    obtain ⟨place, led⟩ := traced.gone fun registered => missing (same.mpr registered)
    refine ⟨place, ?_⟩
    rcases led with free | directory
    · have last : place.getLast? = some (nameOf a.path) := traced.path.getLast?_place free
      have located := locate_seenIn added.here added.kept free
      unfold Destination.seenIn at located
      cases there : after.files.node? place with
      | none => exact .inl (by simpa only [there] using located)
      | some node =>
        rcases added.added place node (isFree_of_locate free).2 there with rfl | named
        · exact .inr (by simpa only [there] using located)
        · rw [last] at named
          exact absurd (Option.some.inj named) apart
    · exact .inr (locate_seenIn added.here added.kept directory)

theorem Accounted.refused {e : MaterializeError} (accounted : Accounted s made)
    (whole : WritesWhole folder s template host)
    (result : materialize folder s template host = (.error e, after)) : Accounted after made := by
  obtain ⟨registry, only⟩ := unchanged_of_refused result
  have here := materialize_here folder s template host
  rw [result] at here
  refine ⟨registry ▸ accounted.registered, accounted.distinct, ?_⟩
  intro a member
  have traced := accounted.each a member
  -- No name is used, so any other one will do.
  have added := addedUnder_of_onlyDirectoriesAdded ('/' :: nameOf a.path) here (only whole)
  exact traced.of_added added (List.ne_cons_self) (by rw [registry])

theorem Accounted.materialized (accounted : Accounted s made)
    (distinct : NextDistinct folder s made)
    (result : materialize folder s template host = (.ok artifact, after)) :
    Accounted after (made ++ [artifact]) := by
  obtain ⟨scratch, grown, located, directories, path, wrote, entries⟩ :=
    files_of_materialize result
  have proper := proper_scratchPath located
  have unused : ¬ grown.HasEntry artifact.path :=
    path ▸ distinct.free scratch grown located directories
  obtain ⟨plain, place, free, _, filled⟩ := filled_of_write unused wrote
  have isPath : IsProbePath artifact.path := by
    rw [path] at plain ⊢
    exact isProbePath_nextPath proper plain
  have name : nameOf artifact.path = fileName s.clock s.serial := by
    rw [path, nameOf_nextPath proper]
  have others : ∀ a ∈ made, nameOf a.path ≠ nameOf artifact.path := name ▸ distinct.name
  have registered : after.artifacts = s.artifacts ++ [artifact] := by
    rw [entries, register_of_new]
    intro a member same
    exact others a (accounted.registered.subset member) (congrArg nameOf same)
  have growth := onlyDirectoriesAdded_of_ensureDirectories directories
  have here : after.files.here = s.files.here := by
    have kept := materialize_here folder s template host
    rwa [result] at kept
  have last : place.getLast? = some (nameOf artifact.path) := isPath.getLast?_place free
  have added : AddedUnder (nameOf artifact.path) s.files after.files :=
    addedUnder_of_filled here growth filled last
  constructor
  · rw [registered]
    exact accounted.registered.append (List.Sublist.refl _)
  · rw [List.map_append, List.nodup_append]
    refine ⟨accounted.distinct, List.nodup_singleton _, ?_⟩
    intro name earlier other new
    obtain ⟨a, member, rfl⟩ := List.mem_map.mp earlier
    rw [List.mem_singleton.mp new]
    exact others a member
  · intro a member
    rcases List.mem_append.mp member with earlier | new
    · apply (accounted.each a earlier).of_added added (others a earlier)
      have other : a ≠ artifact := fun same => others a earlier (congrArg (nameOf ·.path) same)
      simp [registered, other]
    · obtain rfl := List.mem_singleton.mp new
      refine ⟨isPath, ?_, ?_⟩
      · intro _
        exact ⟨place, s.clock, filled.locate_found free⟩
      · intro missing
        exact absurd (by simp [registered]) missing

theorem Accounted.elsewhere (accounted : Accounted s made) {files : FileTree} (clock serial : Nat)
    (apart : ∀ a ∈ made, files.locate false a.path = s.files.locate false a.path) :
    Accounted { s with files, clock, serial } made := by
  refine ⟨accounted.registered, accounted.distinct, ?_⟩
  intro a member
  obtain ⟨path, stands, gone⟩ := accounted.each a member
  rw [← apart a member] at stands gone
  exact ⟨path, stands, gone⟩

theorem Accounted.eq_of_nameOf (accounted : Accounted s made) {one other : Artifact}
    (first : one ∈ made) (second : other ∈ made) (same : nameOf one.path = nameOf other.path) :
    one = other :=
  List.inj_on_of_nodup_map accounted.distinct first second same

theorem Accounted.removed {place : Place} {content : Bytes} {modified : Int}
    (accounted : Accounted s made) (member : a ∈ made)
    (located : s.files.locate false a.path = .ok (.found place (.file content modified))) :
    Accounted { s with files := s.files.removeNode place, artifacts := s.artifacts.filter (· != a) }
      made := by
  have there : s.files.node? place = some (.file content modified) := locate_isIn located
  have last : place.getLast? = some (nameOf a.path) :=
    (accounted.each a member).path.getLast?_place located
  refine ⟨?_, accounted.distinct, ?_⟩
  · exact List.filter_sublist.trans accounted.registered
  · intro b inMade
    have traced := accounted.each b inMade
    by_cases same : b = a
    · subst same
      have gone := locate_removeNode there traced.path.ends located
      rw [Destination.without, if_pos rfl] at gone
      refine ⟨traced.path, ?_, fun _ => ⟨place, .inl gone⟩⟩
      intro kept
      simp at kept
    · -- Names are distinct, so the path of another artifact does not end at this place.
      have led : ∀ {ending}, s.files.locate false b.path = .ok ending →
          (s.files.removeNode place).locate false b.path = .ok ending := by
        intro ending located
        have moved := locate_removeNode there traced.path.ends located
        rwa [Destination.without_of_ne ?_] at moved
        intro atPlace
        have named := traced.path.getLast?_place located
        rw [atPlace, last] at named
        exact same (accounted.eq_of_nameOf inMade member (Option.some.inj named).symm)
      refine ⟨traced.path, ?_, ?_⟩
      · intro kept
        obtain ⟨home, time, located⟩ := traced.stands (List.mem_filter.mp kept).1
        exact ⟨home, time, led located⟩
      · intro missing
        obtain ⟨home, free | directory⟩ := traced.gone fun registered =>
          missing (List.mem_filter.mpr ⟨registered, by simpa using same⟩)
        · exact ⟨home, .inl (led free)⟩
        · exact ⟨home, .inr (led directory)⟩

theorem Accounted.disposed (accounted : Accounted s made) (member : a ∈ made) :
    Accounted (dispose s a.path) made ∧
      (dispose s a.path).artifacts = s.artifacts.filter (· != a) := by
  have own := accounted.each a member
  have forgotten : s.artifacts.filter (·.path != a.path) = s.artifacts.filter (· != a) := by
    apply List.filter_congr
    intro b registered
    by_cases same : b = a
    · simp [same]
    · have other : b.path ≠ a.path := fun path =>
        same (accounted.eq_of_nameOf (accounted.registered.subset registered) member
          (congrArg nameOf path))
      rw [bne_iff_ne.mpr other, bne_iff_ne.mpr same]
  have nonempty : a.path.isEmpty = false := by simpa using own.path.nonempty
  have plain : ¬ a.path.elem '\x00' = true := by rw [own.path.plain]; simp
  unfold dispose
  simp only [nonempty, Bool.false_eq_true, ↓reduceIte, own.path.readBack, forgotten]
  by_cases registered : a ∈ s.artifacts
  · obtain ⟨place, modified, located⟩ := own.stands registered
    have removed : s.files.remove a.path = .ok (s.files.removeNode place) := by
      rw [remove, if_neg plain, located]
    rw [removed]
    exact ⟨accounted.removed member located, rfl⟩
  · have kept : s.artifacts.filter (· != a) = s.artifacts := by
      rw [List.filter_eq_self]
      intro b among
      have other : b ≠ a := fun same => registered (same ▸ among)
      simpa using other
    rw [kept]
    obtain ⟨place, free | directory⟩ := own.gone registered
    · rw [remove, if_neg plain, free]
      exact ⟨accounted, rfl⟩
    · rw [remove, if_neg plain, directory]
      exact ⟨accounted, rfl⟩

theorem Accounted.dispose_nil (accounted : Accounted s made) : dispose s [] = s := by
  have kept : s.artifacts.filter (·.path != []) = s.artifacts := by
    rw [List.filter_eq_self]
    intro b among
    simpa using (accounted.each b (accounted.registered.subset among)).path.nonempty
  simp [dispose, kept]

theorem Accounted.disposed_all (accounted : Accounted s made) {artifacts : List Artifact}
    (among : artifacts ⊆ made) :
    Accounted (artifacts.foldl (fun s artifact => dispose s artifact.path) s) made ∧
      (artifacts.foldl (fun s artifact => dispose s artifact.path) s).artifacts =
        s.artifacts.filter (· ∉ artifacts) := by
  induction artifacts generalizing s with
  | nil => exact ⟨accounted, by simp⟩
  | cons first more ih =>
    obtain ⟨next, registry⟩ := accounted.disposed (among List.mem_cons_self)
    obtain ⟨last, rest⟩ := ih next fun a member => among (List.mem_cons_of_mem first member)
    refine ⟨last, ?_⟩
    rw [List.foldl_cons, rest, registry, List.filter_filter]
    apply List.filter_congr
    intro b _
    by_cases same : b = first <;> simp [same]

theorem accounted_of_managed (managed : Managed folder s made) : Accounted s made := by
  induction managed with
  | start => exact ⟨List.nil_sublist _, List.nodup_nil, by simp⟩
  | elsewhere files clock serial _ apart ih => exact ih.elsewhere clock serial apart
  | made _ distinct result ih => exact ih.materialized distinct result
  | refused _ whole result ih => exact ih.refused whole result
  | dispose _ own ih =>
    rcases own with rfl | ⟨a, member, rfl⟩
    · rwa [ih.dispose_nil]
    · exact (ih.disposed member).1
  | disposeAll _ ih => exact (ih.disposed_all ih.registered.subset).1

theorem locate_through {path : Text} {ending : Destination}
    (located : s.files.locate false path = .ok ending)
    (plain : ∀ place target, ending ≠ .found place (.link target)) :
    s.files.locate true path = .ok ending := by
  rcases @locate_unentered s.files path with same | ⟨place, target, link⟩
  · rwa [← same]
  · rw [located] at link
    exact absurd (Except.ok.inj link) (plain place target)

theorem Traced.status_eq {place : Place} {node : Node} (traced : Traced s a)
    (located : s.files.locate false a.path = .ok (.found place node))
    (plain : ∀ target, node ≠ .link target) : s.files.status a.path = .ok (place, node) := by
  have through := locate_through located fun _ target same =>
    plain target (Destination.found.inj same).2
  rw [status, if_neg (by rw [traced.path.plain]; simp), through]

theorem Traced.read_eq (traced : Traced s a) (registered : a ∈ s.artifacts) :
    ∃ modified, s.files.read a.path = .ok (Utf8.encode a.content, modified) := by
  obtain ⟨place, modified, located⟩ := traced.stands registered
  have status := traced.status_eq located (by simp)
  exact ⟨modified, by rw [FileTree.read, status]⟩

theorem Traced.isFile_iff (traced : Traced s a) :
    s.files.isFile a.path = true ↔ a ∈ s.artifacts := by
  constructor
  · intro isFile
    by_contra missing
    obtain ⟨place, free | directory⟩ := traced.gone missing
    · rw [FileTree.isFile, status, if_neg (by rw [traced.path.plain]; simp),
        locate_through free (by simp)] at isFile
      cases isFile
    · rw [FileTree.isFile, traced.status_eq directory (by simp)] at isFile
      cases isFile
  · intro registered
    obtain ⟨place, modified, located⟩ := traced.stands registered
    rw [FileTree.isFile, traced.status_eq located (by simp)]

end

theorem dispose_dispose (s : ProbeState) (path : Text) :
    dispose (dispose s path) path = dispose s path := by
  have once : (s.artifacts.filter (·.path != path)).filter (·.path != path) =
      s.artifacts.filter (·.path != path) := by
    simp [List.filter_filter]
  cases empty : path.isEmpty with
  | true => simp only [dispose, empty, ↓reduceIte, once]
  | false =>
    cases removed : s.files.remove (Path.ofText path).toText with
    | error e => simp only [dispose, empty, Bool.false_eq_true, ↓reduceIte, removed, once]
    | ok files =>
      have again := remove_remove removed
      simp only [dispose, empty, Bool.false_eq_true, ↓reduceIte, removed, again, once]

/-- At any time the artifacts of the registry are those made so far whose files are there, and
    each file holds its artifact's content. A probe that cannot be written changes neither, its
    write being all or nothing; one that is written adds its entry and its file; forgetting one
    twice is forgetting it once; and when all are to be removed, none is left. -/
theorem registry_matches_disk {folder : ProbeFolder} {s : ProbeState} {made : List Artifact}
    (managed : Managed folder s made) :
    (s.artifacts.map (·.path)).Nodup ∧ s.artifacts.Sublist made ∧
      (∀ a ∈ made, s.files.isFile a.path = true ↔ a ∈ s.artifacts) ∧
      (∀ a ∈ s.artifacts, ∃ modified,
        s.files.read a.path = .ok (Utf8.encode a.content, modified)) ∧
      (∀ template host e after, WritesWhole folder s template host →
        materialize folder s template host = (.error e, after) →
          after.artifacts = s.artifacts ∧ OnlyDirectoriesAdded s.files after.files) ∧
      (∀ template host artifact after, NextDistinct folder s made →
        materialize folder s template host = (.ok artifact, after) →
          after.artifacts = s.artifacts ++ [artifact] ∧
            Stands artifact s.clock s.files after.files) ∧
      (∀ path, dispose (dispose s path) path = dispose s path) ∧
      (disposeAll s).artifacts = [] ∧ ∀ a ∈ made, (disposeAll s).files.isFile a.path = false := by
  have accounted := accounted_of_managed managed
  obtain ⟨cleared, left⟩ := accounted.disposed_all accounted.registered.subset
  have none : (disposeAll s).artifacts = [] := by
    rw [disposeAll, left, List.filter_eq_nil_iff]
    intro a registered
    simpa using registered
  refine ⟨?_, accounted.registered, fun a member => (accounted.each a member).isFile_iff,
    ?_, ?_, ?_, dispose_dispose s, none, ?_⟩
  · have names : (s.artifacts.map fun a => nameOf a.path).Nodup :=
      accounted.distinct.sublist (accounted.registered.map _)
    rw [← Function.comp_def nameOf, ← List.map_map] at names
    exact names.of_map nameOf
  · intro a registered
    exact (accounted.each a (accounted.registered.subset registered)).read_eq registered
  · intro template host e after whole refused
    obtain ⟨registry, only⟩ := unchanged_of_refused refused
    exact ⟨registry, only whole⟩
  · intro template host artifact after distinct result
    have unused := distinct.nextUnused accounted.registered
    obtain ⟨scratch, _, located, _, path, _, entries⟩ := files_of_materialize result
    refine ⟨?_, stands_of_materialize unused result⟩
    rw [entries, register_of_new (path ▸ unused.registry scratch located)]
  · intro a member
    have traced := cleared.each a member
    rw [← Bool.not_eq_true]
    intro isFile
    have registered := traced.isFile_iff.mp isFile
    rw [← disposeAll, none] at registered
    cases registered

theorem not_hasEntry_of_makeDirectory {tree : FileTree} {path : Text}
    (made : (tree.makeDirectory path).isOk = true) : ¬ tree.HasEntry path := by
  rintro ⟨place, node, found⟩
  unfold makeDirectory at made
  rw [found] at made
  split at made <;> cases made

theorem nextDistinct_of_makeDirectory {folder : ProbeFolder} {s : ProbeState}
    {made : List Artifact} {scratch : Path} (located : scratchPath folder s.files = .ok scratch)
    (names : made.all (fun a => nameOf a.path != fileName s.clock s.serial) = true)
    (free : ((s.files.ensureDirectories scratch.root scratch.steps.reverse).toOption.all
      fun grown => (grown.makeDirectory (nextPath s scratch).toText).isOk) = true) :
    NextDistinct folder s made := by
  refine ⟨fun a member => by simpa using List.all_eq_true.mp names a member, ?_⟩
  intro other grown there directories
  rw [located] at there
  cases there
  rw [directories] at free
  exact not_hasEntry_of_makeDirectory free

theorem exists_artifact_of_isOk {folder : ProbeFolder} {s : ProbeState} {template : Text}
    {host : Option ComponentHost} (written : (materialize folder s template host).1.isOk = true) :
    ∃ artifact, materialize folder s template host =
      (.ok artifact, (materialize folder s template host).2) := by
  generalize materialize folder s template host = outcome at written ⊢
  obtain ⟨_ | artifact, after⟩ := outcome
  · cases written
  · exact ⟨artifact, rfl⟩

/-- One of two probes has been removed, and the other one stands. -/
theorem registry_matches_disk_after_one :
    let folder : ProbeFolder := ⟨['t'], some ['/', 'p'], []⟩
    ∃ first second s, Managed folder s [first, second] ∧ s.artifacts = [second] ∧
      s.files.isFile first.path = false ∧ s.files.isFile second.path = true ∧
      (disposeAll s).artifacts = [] := by
  intro folder
  let s : ProbeState := ⟨⟨[], [([['p']], .directory)], none⟩, 7, 1, []⟩
  let once : ProbeState := (materialize folder s ['a'] none).2
  let twice : ProbeState := (materialize folder once ['b'] none).2
  obtain ⟨first, one⟩ : ∃ first, materialize folder s ['a'] none = (.ok first, once) :=
    exists_artifact_of_isOk (by decide +kernel)
  obtain ⟨second, two⟩ : ∃ second, materialize folder once ['b'] none = (.ok second, twice) :=
    exists_artifact_of_isOk (by decide +kernel)
  have entries : once.artifacts = [first] := by
    obtain ⟨_, _, _, _, _, _, entries⟩ := files_of_materialize one
    exact entries
  let scratch : Path := ⟨['/'], [['p'], ['t']]⟩
  have located : scratchPath folder s.files = .ok scratch := by decide +kernel
  have newOne : NextDistinct folder s [] :=
    nextDistinct_of_makeDirectory located rfl (by decide +kernel)
  have names : once.artifacts.all
      (fun a => nameOf a.path != fileName once.clock once.serial) = true := by
    decide +kernel
  have relocated : scratchPath folder once.files = .ok scratch := by decide +kernel
  have newTwo : NextDistinct folder once [first] :=
    nextDistinct_of_makeDirectory relocated (entries ▸ names) (by decide +kernel)
  have before : Managed folder twice [first, second] :=
    ((Managed.start _ _ _).made newOne one).made newTwo two
  have accounted := accounted_of_managed before
  have apart : nameOf first.path ≠ nameOf second.path := by simpa using accounted.distinct
  have paths : first.path ≠ second.path := fun same => apart (congrArg nameOf same)
  have other : first ≠ second := fun same => paths (congrArg Artifact.path same)
  have left : (dispose twice first.path).artifacts = [second] := by
    obtain ⟨_, _, _, _, _, _, registered⟩ := files_of_materialize two
    rw [(accounted.disposed (a := first) (by simp)).2, registered, entries]
    simp [register, paths, other.symm]
  have managed : Managed folder (dispose twice first.path) [first, second] :=
    before.dispose (.inr ⟨first, by simp, rfl⟩)
  obtain ⟨_, _, onDisk, _, _, _, _, none, _⟩ := registry_matches_disk managed
  refine ⟨first, second, _, managed, left, ?_, ?_, none⟩
  · rw [← Bool.not_eq_true, onDisk first (by simp), left]
    simpa using other
  · rw [onDisk second (by simp), left]
    exact List.mem_singleton_self second

end TemplateTypes.Probe
