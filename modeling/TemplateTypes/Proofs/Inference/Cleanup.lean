import TemplateTypes.Proofs.Inference.Transcript
import TemplateTypes.Proofs.Probe.Lifetime

namespace TemplateTypes

open Text FileTree

namespace Prober

variable {σ : Type} {p : Prober σ}

theorem asks_about_artifact {files : FileTree} {artifact : Artifact}
    (searches : List (Binding × Nat)) (s : σ) :
    ∀ asked ∈ asks p files artifact searches s,
      asked.files = files ∧ asked.question.uri = artifact.uri := by
  induction searches generalizing s with
  | nil => simp [asks]
  | cons search more ih =>
    intro asked member
    unfold asks at member
    rcases List.mem_append.mp member with own | later
    · rw [Option.mem_toList] at own
      unfold ask? at own
      dsimp only at own
      split at own
      · cases own
      · cases own
        exact ⟨rfl, rfl⟩
    · split at later
      · cases later
      · exact ih _ asked later

theorem probe_removes {s : ProbingState σ} (unused : Probe.NextUnused p.folder s.probes)
    (map : BindingMap) (bindings : List Binding) (host : Option ComponentHost)
    (whole : Probe.WritesWhole p.folder s.probes (Probe.template bindings) host) :
    (p.probe s map bindings host).2.probes.artifacts = s.probes.artifacts ∧
      OnlyDirectoriesAdded s.probes.files (p.probe s map bindings host).2.probes.files := by
  unfold probe
  split
  · rename_i e probes refused
    obtain ⟨registry, only⟩ := Probe.unchanged_of_refused refused
    exact ⟨registry, only whole⟩
  · rename_i artifact probes made
    exact Probe.dispose_of_materialize unused made

theorem probeAsks_standing {s : ProbingState σ} (unused : Probe.NextUnused p.folder s.probes)
    (bindings : List Binding) (host : Option ComponentHost) :
    ∃ artifact, ∀ asked ∈ p.probeAsks s bindings host, asked.question.uri = artifact.uri ∧
      Probe.Stands artifact s.probes.clock s.probes.files asked.files := by
  unfold probeAsks
  split
  · exact ⟨⟨[], [], 0, [], 0, [], none⟩, by simp⟩
  · rename_i artifact probes made
    refine ⟨artifact, fun asked member => ?_⟩
    obtain ⟨files, uri⟩ := asks_about_artifact _ _ asked member
    exact ⟨uri, files ▸ Probe.stands_of_materialize unused made⟩

def WritesWhole (p : Prober σ) (s : ProbingState σ) (context : InferenceContext) : Prop :=
  ∀ bindings, context.toBindings = .ok bindings →
    Probe.WritesWhole p.folder s.probes (Probe.template bindings) (p.hosted s context.owner).1

/-- Returning, failing or interrupted, an inference leaves the registry and all files as they were,
    given that the name of its probe is new and its write all or nothing. Whenever the oracle is
    asked, there is the one file of the probe in question and no other. -/
theorem infer_removes_probe {s : ProbingState σ} {context : InferenceContext}
    (unused : Probe.NextUnused p.folder s.probes) (whole : p.WritesWhole s context) :
    (p.infer s context).2.probes.artifacts = s.probes.artifacts ∧
      OnlyDirectoriesAdded s.probes.files (p.infer s context).2.probes.files ∧
      ∃ artifact, ∀ asked ∈ p.transcript s context, asked.question.uri = artifact.uri ∧
        Probe.Stands artifact s.probes.clock s.probes.files asked.files := by
  unfold transcript
  cases p.inferred s context with
  | unprobed result infers records =>
    rw [records, infers]
    exact ⟨rfl, .refl _, ⟨[], [], 0, [], 0, [], none⟩, by simp [ProbingState.withOracle]⟩
  | probed bindings read infers records =>
    have whole := whole bindings read
    have kept := (p.hosted_keeps s context.owner).1
    rw [← kept] at unused whole ⊢
    rw [records, infers]
    obtain ⟨registry, files⟩ := probe_removes unused context.bindings bindings _ whole
    exact ⟨registry, files, probeAsks_standing unused bindings _⟩

/-- The first question is not answered at all, and during the next one the inference is told to
    stop. -/
def impatient : Oracle Nat where
  call n _ _ _ := if n = 0 then none else some .interrupted
  after n _ _ _ := n + 1

theorem infer_removes_probe_interrupted :
    let p : Prober Nat :=
      ⟨⟨['t'], some ['/', 'p'], []⟩, ⟨3000, QueryClient.typeScriptTags⟩, impatient, 500, false⟩
    let s : ProbingState Nat :=
      ⟨⟨⟨[], [([['p']], .directory)], none⟩, 7, 1, []⟩, .empty .default, 3, 0⟩
    let context : InferenceContext :=
      ⟨"/p/a.ts".toList, [(['a'], ['x']), (['b'], ['y']), (['c'], ['z'])], []⟩
    Probe.NextUnused p.folder s.probes ∧ p.WritesWhole s context ∧
      (p.infer s context).1 = .error .interrupted ∧
      (p.transcript s context).length = 2 ∧ (p.infer s context).2.probes.artifacts = [] ∧
      OnlyDirectoriesAdded s.probes.files (p.infer s context).2.probes.files := by
  intro p s context
  have unused : Probe.NextUnused p.folder s.probes := by
    have located : Probe.scratchPath p.folder s.probes.files = .ok ⟨['/'], [['p'], ['t']]⟩ := rfl
    constructor
    · intro scratch _ a member
      cases member
    · intro scratch grown there made
      rw [located] at there
      cases there
      have directories : s.probes.files.ensureDirectories ['/'] [['t'], ['p']] =
          .ok ⟨[], [([['p']], .directory), ([['p'], ['t']], .directory)], none⟩ := rfl
      have same := directories.symm.trans made
      cases same
      have free : (FileTree.makeDirectory ⟨[], [([['p']], .directory), ([['p'], ['t']], .directory)], none⟩
          (Probe.nextPath s.probes ⟨['/'], [['p'], ['t']]⟩).toText).isOk = true := by
        decide +kernel
      rintro ⟨place, node, found⟩
      unfold FileTree.makeDirectory at free
      rw [found] at free
      split at free <;> cases free
  have whole : p.WritesWhole s context := fun bindings _ => Probe.writesWhole_of_unbounded rfl
  obtain ⟨registry, files, _⟩ := infer_removes_probe unused whole
  exact ⟨unused, whole, by decide +kernel, by decide +kernel, registry, files⟩

/-- A file that has the name of the next probe is gone after the inference. And where a hundred bytes
    can be stored, a part of the probe stays. -/
theorem infer_changes_files :
    let p : Prober Nat :=
      ⟨⟨['t'], some ['/', 'p'], []⟩, ⟨3000, QueryClient.typeScriptTags⟩, impatient, 500, false⟩
    let context : InferenceContext := ⟨"/p/a.ts".toList, [(['a'], ['x'])], []⟩
    let name : Text := Probe.fileName 7 1
    let path : Text := "/p/t/".toList ++ name
    let folders : List (Place × Node) := [([['p']], .directory), ([['p'], ['t']], .directory)]
    let taken : ProbingState Nat :=
      ⟨⟨⟨[], folders ++ [([['p'], ['t'], name], .file [] 1)], none⟩, 7, 1, []⟩, .empty .default, 3, 0⟩
    let full : ProbingState Nat := ⟨⟨⟨[], folders, some 100⟩, 7, 1, []⟩, .empty .default, 3, 0⟩
    (taken.probes.files.isFile path = true ∧
      (p.infer taken context).2.probes.files.isFile path = false) ∧
      full.probes.files.isFile path = false ∧
      (p.infer full context).2.probes.files.isFile path = true := by
  decide +kernel

end Prober

end TemplateTypes
