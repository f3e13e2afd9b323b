import TemplateTypes.Proofs.Probe.Component
import TemplateTypes.Proofs.Probe.Lifetime
import TemplateTypes.Proofs.Probe.Literals

namespace TemplateTypes.Probe

open Text

def moduleName (file : Text) : Text :=
  dropEnding (dropEnding (Path.ofText file).name ".ts".toList) ".tsx".toList

theorem mem_of_mem_dropEnding {t ending : Text} {c : Char} (member : c ∈ dropEnding t ending) :
    c ∈ t := by
  unfold dropEnding at member
  split at member
  · exact List.mem_of_mem_take member
  · exact member

theorem slash_not_mem_name (t : Text) : '/' ∉ (Path.ofText t).name := by
  unfold Path.name
  cases last : (Path.ofText t).steps.getLast? with
  | none => simp
  | some step => exact ((Path.proper_ofText t).steps step (List.mem_of_getLast? last)).1

theorem ofText_eq_single_iff {name : Text} (free : '/' ∉ name) :
    Path.ofText name = ⟨[], [name]⟩ ↔ name ≠ [] ∧ name ≠ ['.'] := by
  have rootless : Path.rootOf name = [] := by
    rw [Path.rootOf_eq_nil_iff]
    cases name with
    | nil => rfl
    | cons c rest =>
      have other : c ≠ '/' := fun same => free (by simp [same])
      simp [startsWith, List.isPrefixOf, other.symm]
  simp only [Path.ofText, rootless, Path.stepsOf, pieces_of_free free, Path.mk.injEq, true_and]
  by_cases empty : name = []
  · simp [empty]
  · by_cases dot : name = ['.']
    · simp [dot]
    · simp [empty, dot]

theorem importPath_ok_iff (here artifact : Path) (file : Text) :
    (∃ specifier, importPath here artifact file = .ok specifier) ↔
      moduleName file ≠ [] ∧ moduleName file ≠ ['.'] := by
  have free : '/' ∉ moduleName file := fun member =>
    slash_not_mem_name file (mem_of_mem_dropEnding (mem_of_mem_dropEnding member))
  have step := ofText_eq_single_iff free
  unfold importPath Path.withName
  dsimp only
  rw [← moduleName]
  by_cases nameless : (Path.ofText file).name = []
  · have empty : moduleName file = [] := by
      rw [moduleName, nameless]
      decide
    simp [nameless, empty]
  · by_cases single : Path.ofText (moduleName file) = ⟨[], [moduleName file]⟩
    · simp [nameless, single, ← step]
    · simp [nameless, single, ← step]

theorem hostPart_ok_iff (here artifact : Path) (host : Option ComponentHost) :
    (∃ part, hostPart here artifact host = .ok part) ↔
      ∀ h ∈ host, moduleName h.file ≠ [] ∧ moduleName h.file ≠ ['.'] := by
  cases host with
  | none => simp [hostPart]
  | some h =>
    simp only [Option.mem_some_iff, forall_eq', ← importPath_ok_iff here artifact]
    rw [hostPart]
    cases importPath here artifact h.file <;> simp [Except.map]

theorem render_ok_iff (here artifact : Path) (template : Text) (host : Option ComponentHost) :
    (∃ content, render here artifact template host = .ok content) ↔
      ∀ h ∈ host, moduleName h.file ≠ [] ∧ moduleName h.file ≠ ['.'] := by
  rw [← hostPart_ok_iff here artifact, render_eq]
  cases hostPart here artifact host <;> simp [Except.map]

def importOpening (className : Text) : Text :=
  "import \x7b ".toList ++ className ++ " \x7d from '".toList

def specifierOf? (className content : Text) : Option (List Nat) :=
  (after? (frameworkLine ++ '\n' :: importOpening className) content).bind readString

theorem header_at_specifier (suffix className specifier : Text) :
    header suffix (some (className, specifier)) =
      (frameworkLine ++ '\n' :: importOpening className) ++
        (specifier ++ singleQuote :: ';' :: '\n' :: decorator suffix) := by
  have line : hostImport className specifier =
      importOpening className ++ specifier ++ "';".toList := rfl
  have ending : "';".toList = [singleQuote, ';'] := by decide
  rw [header_some, line, ending]
  simp only [List.append_assoc, List.cons_append, List.nil_append]

theorem header_at_suffix (suffix : Text) (part : Option (Text × Text)) :
    ∃ before, header suffix part =
      before ++ (suffix ++ ("',\n  standalone: true,\n  ".toList ++ marker)) := by
  obtain ⟨before, parts⟩ : ∃ before, header suffix part =
      before ++ suffix ++ "',\n  standalone: true,\n  ".toList ++ marker := ⟨_, rfl⟩
  exact ⟨before, by rw [parts, List.append_assoc, List.append_assoc]⟩

theorem specifierOf?_source_iff (suffix className specifier template : Text) :
    specifierOf? className (source suffix (some (className, specifier)) template) =
        some (codeUnits specifier) ↔ Quotable specifier := by
  let below := decorator suffix ++ escapeTemplate template ++ footer (some (className, specifier))
  have parts : source suffix (some (className, specifier)) template =
      (frameworkLine ++ '\n' :: importOpening className) ++
        (specifier ++ singleQuote :: ';' :: '\n' :: below) := by
    rw [source, header_at_specifier]
    simp only [below, List.append_assoc, List.cons_append]
  rw [specifierOf?, after?_eq_some_iff.mpr parts, Option.bind_some]
  exact readString_eq_some_codeUnits_iff specifier below

theorem append_concat {a b front : Text} {c : Char} (ends : b = front ++ [c]) :
    a ++ b = a ++ front ++ [c] := by
  rw [ends, List.append_assoc]

theorem hostImport_eq (className specifier : Text) : hostImport className specifier =
    ("import \x7b ".toList ++ className ++ " \x7d from ".toList) ++
      singleQuote :: (specifier ++ singleQuote :: [';']) :=
  cut_around specifier (append_concat (by decide)) (by decide)

theorem includes_hostImport {className specifier : Text} (identifier : backtick ∉ className)
    (free : includes specifier marker = false) :
    includes (hostImport className specifier) marker = false := by
  have front :
      find? marker ("import \x7b ".toList ++ className ++ " \x7d from ".toList) = none := by
    apply find?_marker_of_no_backtick
    rw [List.mem_append, List.mem_append]
    rintro ((before | named) | after)
    · exact absurd before (by decide)
    · exact identifier named
    · exact absurd after (by decide)
  have absent : find? marker specifier = none := by simpa [includes] using free
  have back : find? marker [';'] = none := by decide
  rw [includes, hostImport_eq, find?_append_separator (by decide) (by decide), front,
    find?_append_separator (by decide) (by decide), absent, back]
  rfl

theorem free_of_templateOffset? {before part behind rest : Text}
    (first : templateOffset? (before ++ (part ++ behind) ++ rest) =
      some (before ++ (part ++ behind)).length)
    (room : marker.length ≤ behind.length) : includes part marker = false := by
  obtain ⟨i, found, ends⟩ := Option.map_eq_some_iff.mp first
  rw [List.append_assoc, List.append_assoc] at found
  apply includes_eq_false_of_find? (by decide) found
  rw [List.length_append, List.length_append] at ends
  omega

theorem templateOffset?_header_iff (suffix : Text) {part : Option (Text × Text)}
    (identifier : ∀ name ∈ part, backtick ∉ name.1) (rest : Text) :
    templateOffset? (header suffix part ++ rest) = some (header suffix part).length ↔
      (∀ name ∈ part, includes name.2 marker = false) ∧ includes suffix marker = false := by
  constructor
  · intro first
    constructor
    · rintro ⟨className, specifier⟩ member
      obtain rfl := Option.mem_def.mp member
      rw [header_at_specifier] at first
      apply free_of_templateOffset? first
      have below := marker_le_decorator suffix
      simp only [List.length_cons]
      omega
    · obtain ⟨before, parts⟩ := header_at_suffix suffix part
      rw [parts] at first
      apply free_of_templateOffset? first
      rw [List.length_append]
      omega
  · rintro ⟨specifiers, own⟩
    refine templateOffset?_header own ?_ rest
    exact fun name member => includes_hostImport (identifier name member) (specifiers name member)

/-- A component's source is read back as the parts it was put together from: the import denotes
    the specifier of the host, and the template is found and says what it said. -/
structure ReadsBack (suffix : Text) (part : Option (Text × Text)) (template content : Text) :
    Prop where
  specifier : ∀ name ∈ part, specifierOf? name.1 content = some (codeUnits name.2)
  offset : templateOffset? content = some (header suffix part).length
  template : ∃ rest after, content = header suffix part ++ rest ∧
    readTemplate rest = some (template, after)

theorem readsBack_source_iff {suffix : Text} {part : Option (Text × Text)}
    (identifier : ∀ name ∈ part, backtick ∉ name.1) (template : Text) :
    ReadsBack suffix part template (source suffix part template) ↔
      (∀ name ∈ part, Quotable name.2 ∧ includes name.2 marker = false) ∧
        includes suffix marker = false := by
  have offset := templateOffset?_header_iff suffix identifier
    (escapeTemplate template ++ footer part)
  rw [← List.append_assoc, ← source] at offset
  have specifier : ∀ name ∈ part, specifierOf? name.1 (source suffix part template) =
      some (codeUnits name.2) ↔ Quotable name.2 := by
    rintro ⟨className, specifier⟩ member
    obtain rfl := Option.mem_def.mp member
    exact specifierOf?_source_iff suffix className specifier template
  constructor
  · intro reads
    obtain ⟨free, own⟩ := offset.mp reads.offset
    exact ⟨fun name member =>
      ⟨(specifier name member).mp (reads.specifier name member), free name member⟩, own⟩
  · rintro ⟨plain, own⟩
    refine ⟨fun name member => (specifier name member).mpr (plain name member).1,
      offset.mpr ⟨fun name member => (plain name member).2, own⟩, ?_⟩
    obtain ⟨after, closing⟩ : ∃ after, footer part = backtick :: after := ⟨_, rfl⟩
    refine ⟨_, after, List.append_assoc _ _ _, ?_⟩
    rw [closing, readTemplate_escapeTemplate]

theorem exists_templateOffset? (suffix : Text) (part : Option (Text × Text)) (template : Text) :
    ∃ offset, templateOffset? (source suffix part template) = some offset := by
  obtain ⟨before, header⟩ : ∃ before, header suffix part = before ++ marker := ⟨_, rfl⟩
  obtain ⟨i, found⟩ := exists_find? before marker (escapeTemplate template ++ footer part)
  refine ⟨i + marker.length, ?_⟩
  rw [templateOffset?, source, header, List.append_assoc, List.append_assoc, found, Option.map_some]

theorem stored_of_materialize {folder : ProbeFolder} {s after : ProbeState} {template : Text}
    {host : Option ComponentHost} {artifact : Artifact}
    (made : materialize folder s template host = (.ok artifact, after)) :
    render ⟨['/'], s.files.here⟩ (Path.ofText artifact.path) template host = .ok artifact.content ∧
      templateOffset? artifact.content = some artifact.templateOffset ∧
      includes (suffix (Path.ofText artifact.path).name) marker = false := by
  obtain ⟨scratch, content, located, rendered, rfl⟩ := artifact_of_materialize made
  have path := ofText_nextPath (s := s) (proper_scratchPath located)
  obtain ⟨part, _, rfl⟩ := hostPart_of_render rendered
  obtain ⟨offset, found⟩ := exists_templateOffset? (suffix (nextPath s scratch).name) part template
  rw [path]
  refine ⟨rendered, ?_, ?_⟩
  · dsimp only
    rw [found, Option.getD_some]
  · rw [name_nextPath]
    exact suffix_fileName_free s.clock s.serial

/-- A component is rendered when its host's file has a name besides its ending. Its source reads
    back exactly when the specifier can stand between quotes as it is, and neither it nor the
    selector holds the marker that the template is found by; the selectors of a manager's own
    probes never do. -/
theorem component_reads_back_iff (template : Text) (host : Option ComponentHost)
    (identifier : ∀ h ∈ host, backtick ∉ h.className) :
    (∀ here artifact, (∃ content, render here artifact template host = .ok content) ↔
      ∀ h ∈ host, moduleName h.file ≠ [] ∧ moduleName h.file ≠ ['.']) ∧
    (∀ here artifact content, render here artifact template host = .ok content →
      ∃ part, hostPart here artifact host = .ok part ∧
        (ReadsBack (suffix artifact.name) part template content ↔
          (∀ name ∈ part, Quotable name.2 ∧ includes name.2 marker = false) ∧
            includes (suffix artifact.name) marker = false)) ∧
    ∀ folder s artifact after, materialize folder s template host = (.ok artifact, after) →
      render ⟨['/'], s.files.here⟩ (Path.ofText artifact.path) template host =
          .ok artifact.content ∧
        templateOffset? artifact.content = some artifact.templateOffset ∧
        includes (suffix (Path.ofText artifact.path).name) marker = false := by
  refine ⟨fun here artifact => render_ok_iff here artifact template host, ?_,
    fun _ _ _ _ made => stored_of_materialize made⟩
  intro here artifact content rendered
  obtain ⟨part, taken, rfl⟩ := hostPart_of_render rendered
  refine ⟨part, taken, readsBack_source_iff ?_ template⟩
  intro name member
  obtain ⟨h, isHost, same, _⟩ := exists_host_of_mem taken member
  rw [← same]
  exact identifier h isHost

/-- The template holds all that is escaped, and the specifier a character of two code units. -/
theorem component_reads_back_iff_ascending :
    let host : ComponentHost := ⟨['A'], "/p/😀.ts".toList⟩
    let artifact : Path := ⟨['/'], [['p'], ['t'], "b.component.ts".toList]⟩
    let template : Text := "\\\x60$\x7b".toList
    backtick ∉ host.className ∧
      ∃ content, render ⟨['/'], []⟩ artifact template (some host) = .ok content ∧
        ReadsBack ['b'] (some (['A'], "../😀".toList)) template content := by
  intro host artifact template
  have identifier : ∀ h ∈ some host, backtick ∉ h.className := by
    rintro h ⟨⟩
    decide
  obtain ⟨rendered, reads, _⟩ := component_reads_back_iff template (some host) identifier
  obtain ⟨content, made⟩ := (rendered ⟨['/'], []⟩ artifact).mpr (by
    rintro h ⟨⟩
    decide)
  obtain ⟨part, taken, reads⟩ := reads _ _ content made
  have own : hostPart ⟨['/'], []⟩ artifact (some host) = .ok (some (['A'], "../😀".toList)) := by
    decide +kernel
  rw [own] at taken
  obtain rfl := Except.ok.inj taken
  refine ⟨by decide, content, made, reads.mpr ⟨?_, by decide⟩⟩
  rintro name ⟨⟩
  decide

/-- A quote in the host's path ends the specifier, and a marker in it is taken for the one before
    the template. -/
theorem component_misread :
    let artifact : Path := ⟨['/'], [['p'], ['t'], "b.component.ts".toList]⟩
    (∃ content, render ⟨['/'], []⟩ artifact ['x'] (some ⟨['A'], "/p/it's.ts".toList⟩) =
        .ok content ∧
      specifierOf? ['A'] content = some (codeUnits "../it".toList) ∧
      ¬ ReadsBack ['b'] (some (['A'], "../it's".toList)) ['x'] content) ∧
    ∃ content offset, render ⟨['/'], []⟩ artifact ['x']
        (some ⟨['A'], "/p/template: \x60/a.ts".toList⟩) = .ok content ∧
      templateOffset? content = some offset ∧ (content.drop offset).head? = some '/' ∧
      ¬ ReadsBack ['b'] (some (['A'], "../template: \x60/a".toList)) ['x'] content := by
  intro artifact
  have quoted : importPath ⟨['/'], []⟩ artifact "/p/it's.ts".toList = .ok "../it's".toList := by
    decide +kernel
  have marked : importPath ⟨['/'], []⟩ artifact "/p/template: \x60/a.ts".toList =
      .ok "../template: \x60/a".toList := by
    decide +kernel
  refine ⟨⟨source ['b'] (some (['A'], "../it's".toList)) ['x'], ?_, by decide +kernel, ?_⟩,
    source ['b'] (some (['A'], "../template: \x60/a".toList)) ['x'], 76, ?_, by decide +kernel,
    by decide +kernel, ?_⟩
  · rw [render_eq, hostPart, quoted]
    rfl
  · intro reads
    exact absurd (reads.specifier _ rfl) (by decide +kernel)
  · rw [render_eq, hostPart, marked]
    rfl
  · intro reads
    exact absurd reads.offset (by decide +kernel)

end TemplateTypes.Probe
