import TemplateTypes.Proofs.Files.Path
import TemplateTypes.Proofs.Files.Tree
import TemplateTypes.Proofs.Probe.Component
import TemplateTypes.Proofs.Probe.Registry

namespace TemplateTypes

open Text FileTree

def FileTree.OneFileAdded (before after : FileTree) : Prop :=
  ∃ place content modified, before.node? place = none ∧
    after.node? place = some (.file content modified) ∧
    ∀ other, other ≠ place → after.node? other = before.node? other ∨
      before.node? other = none ∧ after.node? other = some .directory

namespace Probe

/-- The name of the next probe is new: no probe of the registry has it, and nothing in the scratch
    directory once that is there. -/
structure NextUnused (folder : ProbeFolder) (s : ProbeState) : Prop where
  registry : ∀ scratch, scratchPath folder s.files = .ok scratch →
    ∀ a ∈ s.artifacts, a.path ≠ (nextPath s scratch).toText
  directory : ∀ scratch grown, scratchPath folder s.files = .ok scratch →
    s.files.ensureDirectories scratch.root scratch.steps.reverse = .ok grown →
      ¬ grown.HasEntry (nextPath s scratch).toText

theorem slash_not_mem_fileName (clock serial : Nat) : '/' ∉ fileName clock serial :=
  not_mem_fileName (fun _ => Nat.digitChar_ne '/' (by decide)) (by decide) (by decide) clock serial

theorem proper_scratchPath {folder : ProbeFolder} {files : FileTree} {scratch : Path}
    (located : scratchPath folder files = .ok scratch) : scratch.Proper := by
  unfold scratchPath at located
  dsimp only at located
  split at located
  · cases located
  · simp only [Except.ok.injEq] at located
    rw [← located]
    exact (Path.proper_ofText _).append (Path.proper_ofText _)

theorem ofText_nextPath {s : ProbeState} {scratch : Path} (proper : scratch.Proper) :
    Path.ofText (nextPath s scratch).toText = nextPath s scratch := by
  obtain ⟨rest, starts⟩ : ∃ rest, fileName s.clock s.serial = 't' :: rest := ⟨_, rfl⟩
  have child := proper.child (slash_not_mem_fileName s.clock s.serial) (by simp [starts])
    (by simp [starts])
  exact Path.Proper.ofText_toText child (by simp [nextPath, Path.child])

theorem register_of_new {artifact : Artifact} {artifacts : List Artifact}
    (new : ∀ a ∈ artifacts, a.path ≠ artifact.path) :
    register artifact artifacts = artifacts ++ [artifact] := by
  induction artifacts with
  | nil => rfl
  | cons a more ih =>
    have other := new a List.mem_cons_self
    have others := ih fun b member => new b (List.mem_cons_of_mem a member)
    simp [register, other, others]

section

variable {folder : ProbeFolder} {s after : ProbeState} {template : Text}
  {host : Option ComponentHost}

def WritesWhole (folder : ProbeFolder) (s : ProbeState) (template : Text)
    (host : Option ComponentHost) : Prop :=
  ∀ scratch grown content, scratchPath folder s.files = .ok scratch →
    s.files.ensureDirectories scratch.root scratch.steps.reverse = .ok grown →
      render ⟨['/'], s.files.here⟩ (nextPath s scratch) template host = .ok content →
        grown.PutsWhole (nextPath s scratch).toText (Utf8.encode content) s.clock

theorem writesWhole_of_unbounded (unbounded : s.files.capacity = none) :
    WritesWhole folder s template host := by
  intro scratch grown content _ made _
  have kept := (kept_growDirectories s.files scratch.root scratch.steps.reverse).2
  rw [growDirectories_of_ensureDirectories made] at kept
  exact putsWhole_of_unbounded (kept.trans unbounded) _ _

/-- A probe that could not be written has left no entry, and no file either where its write was all
    or nothing. -/
theorem unchanged_of_refused {e : MaterializeError}
    (refused : materialize folder s template host = (.error e, after)) :
    after.artifacts = s.artifacts ∧
      (WritesWhole folder s template host → OnlyDirectoriesAdded s.files after.files) := by
  unfold materialize at refused
  split at refused
  · cases refused
    exact ⟨rfl, fun _ => .refl _⟩
  · rename_i scratch located
    dsimp only at refused
    split at refused
    · cases refused
      exact ⟨rfl, fun _ => .refl _⟩
    · split at refused
      · rename_i content rendered cause files failed
        cases refused
        refine ⟨rfl, fun whole => ?_⟩
        have growth := onlyDirectoriesAdded_growDirectories s.files scratch.root
          scratch.steps.reverse
        unfold writeProbe at failed
        split at failed
        · rename_i made
          cases failed
          rwa [made] at growth
        · rename_i grown directories
          have made : s.files.ensureDirectories scratch.root scratch.steps.reverse = .ok grown := by
            rw [ensureDirectories, directories]
          rw [directories] at growth
          exact whole scratch grown _ located made ‹_› _ _ failed ▸ growth
      · cases refused

variable {artifact : Artifact}

theorem files_of_materialize
    (made : materialize folder s template host = (.ok artifact, after)) :
    ∃ scratch grown, scratchPath folder s.files = .ok scratch ∧
      s.files.ensureDirectories scratch.root scratch.steps.reverse = .ok grown ∧
      artifact.path = (nextPath s scratch).toText ∧
      grown.write artifact.path (Utf8.encode artifact.content) s.clock = .ok after.files ∧
      after.artifacts = register artifact s.artifacts := by
  unfold materialize at made
  split at made
  · cases made
  · rename_i scratch located
    dsimp only at made
    split at made
    · cases made
    · split at made
      · cases made
      · rename_i files written
        simp only [Prod.mk.injEq, Except.ok.injEq] at made
        obtain ⟨rfl, rfl⟩ := made
        unfold writeProbe at written
        split at written
        · cases written
        · rename_i grown directories
          have made : s.files.ensureDirectories scratch.root scratch.steps.reverse = .ok grown := by
            rw [ensureDirectories, directories]
          exact ⟨scratch, grown, located, made, rfl, write_eq_ok_iff.mpr written, rfl⟩

/-- A probe that stands: its file holds its content, and nothing else has been added. -/
structure Stands (artifact : Artifact) (clock : Nat) (before seen : FileTree) : Prop where
  read : seen.read artifact.path = .ok (Utf8.encode artifact.content, (clock : Int))
  alone : OneFileAdded before seen

theorem stands_of_materialize (unused : NextUnused folder s)
    (made : materialize folder s template host = (.ok artifact, after)) :
    Stands artifact s.clock s.files after.files := by
  obtain ⟨scratch, grown, located, directories, path, wrote, _⟩ := files_of_materialize made
  have new : ¬ grown.HasEntry artifact.path :=
    path ▸ unused.directory scratch grown located directories
  have growth := onlyDirectoriesAdded_of_ensureDirectories directories
  obtain ⟨_, place, _, _, filled⟩ := filled_of_write new wrote
  refine ⟨read_of_write wrote, place, _, _, ?_, filled.there, fun other apart => ?_⟩
  · rcases growth place with same | ⟨nothing, _⟩
    · rw [← same, filled.isFree.2]
    · exact nothing
  · rw [filled.elsewhere other apart]
    exact growth other

theorem dispose_of_materialize (unused : NextUnused folder s)
    (made : materialize folder s template host = (.ok artifact, after)) :
    (dispose after artifact.path).artifacts = s.artifacts ∧
      OnlyDirectoriesAdded s.files (dispose after artifact.path).files := by
  obtain ⟨scratch, grown, located, directories, path, wrote, entries⟩ := files_of_materialize made
  have new : ¬ grown.HasEntry artifact.path :=
    path ▸ unused.directory scratch grown located directories
  have registered : ∀ a ∈ s.artifacts, a.path ≠ artifact.path :=
    path ▸ unused.registry scratch located
  have growth := onlyDirectoriesAdded_of_ensureDirectories directories
  obtain ⟨removed, gone, unchanged⟩ := remove_of_write new wrote
  have forgotten : after.artifacts.filter (·.path != artifact.path) = s.artifacts := by
    rw [entries, register_of_new registered, List.filter_append, List.filter_eq_self.mpr]
    · simp
    · exact fun a member => bne_iff_ne.mpr (registered a member)
  have readBack : (Path.ofText artifact.path).toText = artifact.path := by
    rw [path, ofText_nextPath (proper_scratchPath located)]
  have named : artifact.path.isEmpty = false := by
    rw [List.isEmpty_eq_false_iff]
    intro empty
    rw [empty] at readBack
    exact absurd readBack (by decide)
  simp only [dispose, named, Bool.false_eq_true, ↓reduceIte, readBack, gone, forgotten, true_and]
  intro place
  rw [unchanged place]
  exact growth place

end

theorem writeProbe_here (files : FileTree) (clock : Nat) (scratch : Path) (path content : Text) :
    (writeProbe files clock scratch path content).2.here = files.here := by
  have kept := (kept_growDirectories files scratch.root scratch.steps.reverse).1
  unfold writeProbe
  split
  · rename_i made
    rwa [made] at kept
  · rename_i grown made
    rw [made] at kept
    exact (here_put (Utf8.encode content) clock).trans kept

theorem materialize_here (folder : ProbeFolder) (s : ProbeState) (template : Text)
    (host : Option ComponentHost) :
    (materialize folder s template host).2.files.here = s.files.here := by
  unfold materialize
  split
  · rfl
  · rename_i scratch located
    dsimp only
    split
    · rfl
    · rename_i content rendered
      have kept := writeProbe_here s.files s.clock scratch
        (scratch.child (fileName s.clock s.serial)).toText content
      split
      · rename_i failed
        rwa [failed] at kept
      · rename_i wrote
        rwa [wrote] at kept

theorem dispose_here (s : ProbeState) (path : Text) :
    (dispose s path).files.here = s.files.here := by
  unfold dispose
  dsimp only
  split
  · rfl
  · split
    · rename_i removed
      exact here_of_remove removed
    · rfl

end Probe

end TemplateTypes
