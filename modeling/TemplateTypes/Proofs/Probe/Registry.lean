import TemplateTypes.Probe.Registry

namespace TemplateTypes.Probe

open Text

/-- What a component takes from its host: the class name and the specifier of the file. -/
def hostPart (here artifact : Path) :
    Option ComponentHost → Except Path.NameError (Option (Text × Text))
  | none => .ok none
  | some h => (importPath here artifact h.file).map fun specifier => some (h.className, specifier)

theorem render_eq (here artifact : Path) (template : Text) (host : Option ComponentHost) :
    render here artifact template host = (hostPart here artifact host).map fun part =>
      source (suffix artifact.name) part template := by
  cases host with
  | none => rfl
  | some h =>
    simp only [render, hostPart]
    cases importPath here artifact h.file <;> rfl

theorem hostPart_of_render {here artifact : Path} {template content : Text}
    {host : Option ComponentHost} (rendered : render here artifact template host = .ok content) :
    ∃ part, hostPart here artifact host = .ok part ∧
      content = source (suffix artifact.name) part template := by
  rw [render_eq] at rendered
  cases taken : hostPart here artifact host with
  | error e =>
    rw [taken] at rendered
    cases rendered
  | ok part =>
    rw [taken] at rendered
    exact ⟨part, rfl, (Except.ok.inj rendered).symm⟩

theorem exists_host_of_mem {here artifact : Path} {host : Option ComponentHost}
    {part : Option (Text × Text)} (taken : hostPart here artifact host = .ok part)
    {name : Text × Text} (member : name ∈ part) :
    ∃ h ∈ host, h.className = name.1 ∧ importPath here artifact h.file = .ok name.2 := by
  cases host with
  | none =>
    cases taken
    cases member
  | some h =>
    rw [hostPart] at taken
    cases found : importPath here artifact h.file with
    | error e =>
      rw [found] at taken
      cases taken
    | ok specifier =>
      rw [found] at taken
      cases taken
      cases member
      exact ⟨h, rfl, rfl, found⟩

theorem scratchPath_of_root {folder : ProbeFolder} {files : FileTree} {root : Text} {place : Place}
    (own : folder.projectRoot = some root) (filled : root ≠ [])
    (resolved : files.resolve root = .ok place) :
    scratchPath folder files =
      .ok (Path.ofText (FileTree.placeText place) / Path.ofText folder.scratchDir) := by
  obtain ⟨c, rest, rfl⟩ := List.exists_cons_of_ne_nil filled
  unfold scratchPath
  rw [own]
  dsimp only [Option.getD_some]
  rw [resolved]

def nextPath (s : ProbeState) (scratch : Path) : Path := scratch.child (fileName s.clock s.serial)

theorem name_nextPath (s : ProbeState) (scratch : Path) :
    (nextPath s scratch).name = fileName s.clock s.serial := by
  simp [nextPath, Path.child, Path.name]

theorem artifact_of_materialize {folder : ProbeFolder} {s after : ProbeState} {template : Text}
    {host : Option ComponentHost} {artifact : Artifact}
    (made : materialize folder s template host = (.ok artifact, after)) :
    ∃ scratch content, scratchPath folder s.files = .ok scratch ∧
      render ⟨['/'], s.files.here⟩ (nextPath s scratch) template host = .ok content ∧
      artifact = ⟨(nextPath s scratch).toText, Uri.ofPath (nextPath s scratch), s.clock, content,
        (templateOffset? content).getD 0, template, host⟩ := by
  unfold materialize at made
  split at made
  · cases made
  · rename_i scratch located
    dsimp only at made
    split at made
    · cases made
    · rename_i content rendered
      split at made
      · cases made
      · simp only [Prod.mk.injEq, Except.ok.injEq] at made
        exact ⟨scratch, content, located, rendered, made.1.symm⟩

end TemplateTypes.Probe
