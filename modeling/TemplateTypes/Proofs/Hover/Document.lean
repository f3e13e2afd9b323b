import TemplateTypes.Hover.Document
import TemplateTypes.Proofs.Files.Uri
import TemplateTypes.Proofs.Probe.Lifetime

namespace TemplateTypes

open Text

theorem Document.read_of_file {files : FileTree} {uri content : Text} {path : Path}
    {modified : Int} (named : Uri.toPath uri = .ok path)
    (stored : files.read path.toText = .ok (Utf8.encode content, modified)) :
    Document.read files uri = .ok (unifyLines content) := by
  simp only [Document.read, named, stored, Except.mapError, bind, Except.bind, pure, Except.pure,
    Utf8.decode_encode]

theorem Path.root_append_ne_nil {p : Path} (absolute : p.root ≠ []) (q : Path) :
    (p / q).root ≠ [] := by
  change (Path.append p q).root ≠ []
  unfold Path.append
  split
  · rename_i rooted
    simpa [Path.isAbsolute] using rooted
  · exact absolute

namespace Probe

theorem root_nextPath {folder : ProbeFolder} {s : ProbeState} {scratch : Path}
    (located : scratchPath folder s.files = .ok scratch) : (nextPath s scratch).root ≠ [] := by
  unfold scratchPath at located
  dsimp only at located
  split at located
  · cases located
  · rename_i place _
    cases located
    have absolute : (Path.ofText (FileTree.placeText place)).root ≠ [] := by
      rw [Path.ofText, Ne, Path.rootOf_eq_nil_iff]
      simp [FileTree.placeText, Path.toText, startsWith]
    exact Path.root_append_ne_nil absolute _

theorem toPath_of_materialize {folder : ProbeFolder} {s after : ProbeState} {template : Text}
    {host : Option ComponentHost} {artifact : Artifact}
    (made : materialize folder s template host = (.ok artifact, after)) :
    ∃ path, Uri.toPath artifact.uri = .ok path ∧ path.toText = artifact.path := by
  obtain ⟨scratch, content, located, _, rfl⟩ := artifact_of_materialize made
  have proper : (nextPath s scratch).Proper := by
    rw [← ofText_nextPath (s := s) (proper_scratchPath located)]
    exact Path.proper_ofText _
  exact ⟨_, Uri.toPath_ofPath proper (root_nextPath located), rfl⟩

end Probe

/-- The URI of an absolute path leads back to the path. So the document that is read under a probe's
    URI is what has just been written to the probe's path. -/
theorem uri_names_file :
    (∀ path : Path, path.Proper → path.root ≠ [] → Uri.toPath (Uri.ofPath path) = .ok path) ∧
      ∀ folder s template host artifact after,
        Probe.materialize folder s template host = (.ok artifact, after) →
        ∃ path, Uri.toPath artifact.uri = .ok path ∧ path.toText = artifact.path ∧
          Document.read after.files artifact.uri = .ok (unifyLines artifact.content) := by
  refine ⟨fun path proper absolute => Uri.toPath_ofPath proper absolute, ?_⟩
  intro folder s template host artifact after made
  obtain ⟨path, named, text⟩ := Probe.toPath_of_materialize made
  obtain ⟨_, _, _, _, _, wrote, _⟩ := Probe.files_of_materialize made
  have stored := FileTree.read_of_write wrote
  rw [← text] at stored
  exact ⟨path, named, text, Document.read_of_file named stored⟩

/-- Signs at which a URI is cut, an escape that was there before and characters of several bytes. -/
theorem uri_names_file_reserved :
    let path : Path := ⟨['/', '/'], ["50%3F?#;".toList, "é😀\n".toList]⟩
    let folder : ProbeFolder := ⟨['t'], some "/a #".toList, []⟩
    let s : ProbeState := ⟨⟨[], [(["a #".toList], .directory)], none⟩, 7, 1, []⟩
    path.Proper ∧ Uri.toPath (Uri.ofPath path) = .ok path ∧
      ∃ artifact after, Probe.materialize folder s "a\r\nb".toList none = (.ok artifact, after) ∧
        artifact.uri = "file:///a%20%23/t/type-probe-7-00000001.component.ts".toList ∧
        Document.read after.files artifact.uri = .ok (unifyLines artifact.content) := by
  intro path folder s
  obtain ⟨back, own⟩ := uri_names_file
  have proper : path.Proper := ⟨by decide, by decide⟩
  refine ⟨proper, back path proper (by decide), ?_⟩
  have written : ((Probe.materialize folder s "a\r\nb".toList none).1.toOption.map (·.uri)) =
      some "file:///a%20%23/t/type-probe-7-00000001.component.ts".toList := by decide +kernel
  cases made : Probe.materialize folder s "a\r\nb".toList none with
  | mk result after =>
    rw [made] at written
    cases result with
    | error e => cases written
    | ok artifact =>
      obtain ⟨_, _, _, read⟩ := own folder s _ none artifact after made
      exact ⟨artifact, after, rfl, Option.some.inj written, read⟩

end TemplateTypes
