import TemplateTypes.Proofs.Files.Confine
import TemplateTypes.Proofs.Files.Growth
import TemplateTypes.Proofs.Inference.Cleanup
import TemplateTypes.Proofs.Workspace.Root
import TemplateTypes.Inference.Request

namespace TemplateTypes

open Text FileTree

theorem Settings.relative_of_problems {settings : Settings} (accepted : settings.problems = []) :
    startsWith settings.scratchDir ['/'] = false := by
  simp only [problems, List.append_eq_nil_iff] at accepted
  obtain ⟨⟨_, scratch⟩, _⟩ := accepted
  by_contra absolute
  split at scratch
  · cases scratch
  · rw [if_pos (by simpa using absolute)] at scratch
    cases scratch

namespace Probe

theorem isEntryName_fileName (clock serial : Nat) : IsEntryName (fileName clock serial) := by
  obtain ⟨rest, starts⟩ : ∃ rest, fileName clock serial = 't' :: rest := ⟨_, rfl⟩
  have noNul : '\x00' ∉ fileName clock serial :=
    not_mem_fileName (fun _ => Nat.digitChar_ne '\x00' (by decide)) (by decide) (by decide) clock
      serial
  refine ⟨?_, slash_not_mem_fileName clock serial, noNul, ?_, ?_⟩ <;> simp [starts, dot, Path.up]

variable {folder : ProbeFolder} {s : ProbeState} {P : Text → Prop}

theorem writtenUnder_materialize (template : Text) (host : Option ComponentHost)
    (holds : ∀ scratch, scratchPath folder s.files = .ok scratch →
      ∀ start, start <+: (nextPath s scratch).steps → '\x00' ∉ Path.toText ⟨scratch.root, start⟩ →
        P (Path.toText ⟨scratch.root, start⟩)) :
    WrittenUnder P s.files (materialize folder s template host).2.files := by
  unfold materialize
  split
  · exact .refl P _
  · rename_i scratch located
    have own := holds scratch located
    have grown : WrittenUnder P s.files
        (s.files.growDirectories scratch.root scratch.steps.reverse).2 := by
      refine writtenUnder_growDirectories _ _ _ fun start begins => own start ?_
      rw [List.reverse_reverse] at begins
      exact begins.trans (List.prefix_append _ _)
    dsimp only
    split
    · exact .refl P _
    · rename_i content rendered
      have written : WrittenUnder P s.files (writeProbe s.files s.clock scratch
          (scratch.child (fileName s.clock s.serial)).toText content).2 := by
        unfold writeProbe
        split
        · rename_i made
          rwa [made] at grown
        · rename_i tree made
          rw [made] at grown
          exact grown.trans (writtenUnder_put _ _ (own _ List.prefix_rfl))
      split
      · rename_i failed
        rwa [failed] at written
      · rename_i wrote
        rwa [wrote] at written

theorem node?_of_dispose {s : ProbeState} {path : Text} {place : Place} {node : Node}
    (there : (dispose s path).files.node? place = some node) :
    s.files.node? place = some node := by
  unfold dispose at there
  dsimp only at there
  split at there
  · exact there
  · split at there
    · rename_i removed
      exact node?_of_remove removed there
    · exact there

end Probe

section

variable {files seen : FileTree} {base root made start : Place} {scratchDir name : Text}

theorem proper_beginning (named : IsNamed root) (entry : IsEntryName name)
    (begins : start <+: root ++ Path.stepsOf scratchDir ++ [name]) :
    (Path.mk ['/'] start).Proper := by
  refine ⟨.inr (.inl rfl), fun step member => ?_⟩
  have inside := begins.subset member
  rw [List.mem_append, List.mem_append, List.mem_singleton] at inside
  rcases inside with (above | steps) | rfl
  · exact named.proper.steps step above
  · exact (Path.proper_ofText scratchDir).steps step steps
  · exact ⟨entry.2.1, entry.1, entry.2.2.2.1⟩

theorem isNamed_beginning (named : IsNamed root) (entry : IsEntryName name)
    (begins : start <+: root ++ Path.stepsOf scratchDir ++ [name])
    (plain : '\x00' ∉ placeText start) (onward : Path.up ∉ start) : IsNamed start := by
  have proper := proper_beginning named entry begins
  intro step member
  obtain ⟨noSlash, filled, notDot⟩ := proper.steps step member
  have noNul : '\x00' ∉ step := fun own =>
    plain ((proper.nul_mem_toText_iff (List.cons_ne_nil _ _)).mpr ⟨step, member, own⟩)
  exact ⟨filled, noSlash, noNul, notDot, fun same => onward (same ▸ member)⟩

theorem eq_of_names (named : IsNamed start) (straight : IsStraight seen.target? start)
    (names : seen.Names (placeText start) made) : made = start := by
  obtain ⟨through, node, located⟩ := names
  rcases @locate_names seen start through named straight with
    ⟨errno, refused, _⟩ | ⟨ending, reached, same⟩
  · rw [refused] at located
    cases located
  · obtain rfl := Except.ok.inj (reached.symm.trans located)
    exact same

/-- What is new has been written under a path that goes beyond the base, for the directories above
    it were there. -/
theorem base_isPrefix_beginning (kept : files.Kept)
    (there : files.node? base.dropLast = some .directory) (grown : Grown files seen) {goal : Place}
    (below : base <+: goal) (begins : start <+: goal) {node : Node}
    (names : seen.Names (placeText start) made) (now : seen.node? made = some node)
    (new : files.node? made ≠ some node) : base <+: start := by
  rcases List.prefix_or_prefix_of_prefix begins below with above | beyond
  · by_cases same : start = base
    · exact same ▸ List.prefix_rfl
    · have known : files.node? start = some .directory := by
        have higher := isPrefix_dropLast_of_ne above same
        by_cases top : start = base.dropLast
        · rw [top, there]
        · exact kept.directory there higher top
      have straight : IsStraight seen.target? start := fun other begins => by
        rw [grown.links, kept.isStraight known other begins]
      obtain rfl := eq_of_names (kept.isNamed known) straight names
      rw [grown.directory known] at now
      exact absurd (known.trans now) new
  · exact beyond

theorem base_isPrefix_flatten (named : IsNamed root) (entry : IsEntryName name)
    (below : base <+: root) (level : Path.IsLevel (Path.stepsOf scratchDir))
    (begins : start <+: root ++ Path.stepsOf scratchDir ++ [name]) (beyond : base <+: start) :
    base <+: (Path.ofText (placeText start)).flatten.steps := by
  by_cases empty : start = []
  · rw [empty, List.prefix_nil] at beyond
    rw [beyond]
    exact List.nil_prefix
  have readBack : Path.ofText (placeText start) = ⟨['/'], start⟩ :=
    (proper_beginning named entry begins).ofText_toText empty
  rw [readBack]
  rw [List.append_assoc] at begins
  rcases List.prefix_or_prefix_of_prefix begins (List.prefix_append root _) with short | ⟨more, rfl⟩
  · rw [Path.flatten_of_not_mem (named.of_isPrefix short).not_mem_up]
    exact beyond
  · have inside : more <+: Path.stepsOf scratchDir ++ [name] :=
      (List.prefix_append_right_inj root).mp begins
    have levelMore : Path.IsLevel more := (level.concat entry.2.2.2.2).of_isPrefix inside
    exact below.trans (levelMore.isPrefix_flatten named.not_mem_up)

end

namespace Prober

variable {σ : Type}

def written (p : Prober σ) (s : ProbingState σ) (context : InferenceContext)
    (bindings : List Binding) : FileTree :=
  (Probe.materialize p.folder (p.hosted s context.owner).2.probes (Probe.template bindings)
    (p.hosted s context.owner).1).2.files

variable {p : Prober σ} {s : ProbingState σ} {context : InferenceContext}

theorem files_of_transcript {asked : Asked} (member : asked ∈ p.transcript s context) :
    ∃ bindings, context.toBindings = .ok bindings ∧
      asked.files = p.written s context bindings := by
  unfold transcript at member
  cases p.inferred s context with
  | unprobed result infers records =>
    rw [records] at member
    cases member
  | probed bindings read infers records =>
    refine ⟨bindings, read, ?_⟩
    rw [records] at member
    change asked ∈ p.probeAsks _ _ _ at member
    unfold probeAsks at member
    unfold written
    split at member
    · cases member
    · rename_i made
      rw [made]
      exact (asks_about_artifact _ _ asked member).1

theorem node?_of_infer {place : Place} {node : Node}
    (there : (p.infer s context).2.probes.files.node? place = some node) :
    s.probes.files.node? place = some node ∨
      ∃ bindings, context.toBindings = .ok bindings ∧
        (p.written s context bindings).node? place = some node := by
  cases p.inferred s context with
  | unprobed result infers records =>
    rw [infers] at there
    exact .inl there
  | probed bindings read infers records =>
    refine .inr ⟨bindings, read, ?_⟩
    rw [infers] at there
    unfold probe at there
    unfold written
    split at there
    · rename_i refused
      rw [refused]
      exact there
    · rename_i made
      rw [made]
      exact Probe.node?_of_dispose there

end Prober

theorem node?_of_inferTypes {σ : Type} {prober : Option (Prober σ)} {s : ProbingState σ}
    {context : InferenceContext} {place : Place} {node : Node}
    (there : (inferTypes prober s context).2.probes.files.node? place = some node) :
    s.probes.files.node? place = some node ∨
      ∃ p ∈ prober, (p.infer s context).2.probes.files.node? place = some node := by
  unfold inferTypes at there
  split at there
  · exact .inl there
  · split at there
    · exact .inl there
    · rename_i p
      refine .inr ⟨p, rfl, ?_⟩
      split at there
      · rename_i inferred
        rw [inferred]
        exact there
      · rename_i report between inferred
        rw [inferred]
        unfold Merge.fill at there
        dsimp only at there
        split at there <;> exact there

namespace InferenceRequest

variable {σ : Type} {r : InferenceRequest} {settings : Settings} {oracle : Option (Oracle σ)}
  {projectRoot : Text} {s : ProbingState σ}

def task? (r : InferenceRequest) (settings : Settings) (oracle : Option (Oracle σ))
    (projectRoot : Text) (s : ProbingState σ) : Option (Prober σ × InferenceContext) :=
  match mapping r.nesting "bindings".toList r.bindings, kindMap r.nesting r.kinds,
      s.probes.files.confine r.owner projectRoot with
  | .ok bindings, .ok kinds, .ok place =>
    (r.prober? settings oracle s projectRoot (placeText place)).map fun p =>
      (p, ⟨placeText place, bindings, kinds⟩)
  | _, _, _ => none

/-- The files as they are at some time of a request after something may have been created. -/
inductive Sees (r : InferenceRequest) (settings : Settings) (oracle : Option (Oracle σ))
    (projectRoot : Text) (s : ProbingState σ) : FileTree → Prop
  | written {p : Prober σ} {context : InferenceContext} {bindings : List Binding}
    (task : r.task? settings oracle projectRoot s = some (p, context))
    (read : context.toBindings = .ok bindings) :
    Sees r settings oracle projectRoot s (p.written s context bindings)
  | asked {p : Prober σ} {context : InferenceContext} {asked : Asked}
    (task : r.task? settings oracle projectRoot s = some (p, context))
    (member : asked ∈ p.transcript s context) : Sees r settings oracle projectRoot s asked.files
  | left : Sees r settings oracle projectRoot s
    (r.respond settings oracle projectRoot s).2.probes.files

theorem node?_of_respond {place : Place} {node : Node}
    (there : (r.respond settings oracle projectRoot s).2.probes.files.node? place = some node) :
    s.probes.files.node? place = some node ∨
      ∃ p context, r.task? settings oracle projectRoot s = some (p, context) ∧
        (p.infer s context).2.probes.files.node? place = some node := by
  unfold respond at there
  unfold task?
  split at there
  · split at there <;> exact .inl there
  · rename_i bindings accepted
    rw [accepted]
    split at there
    · split at there <;> exact .inl there
    · rename_i kinds read
      rw [read]
      split at there
      · exact .inl there
      · exact .inl there
      · rename_i owner confined
        rw [confined]
        unfold inferIn at there
        dsimp only at there
        have inferred : (inferTypes (r.prober? settings oracle s projectRoot (placeText owner)) s
            ⟨placeText owner, bindings, kinds⟩).2.probes.files.node? place = some node := by
          split at there <;> rename_i ended <;> rw [ended] <;> exact there
        rcases node?_of_inferTypes inferred with before | ⟨p, used, ended⟩
        · exact .inl before
        · refine .inr ⟨p, ⟨placeText owner, bindings, kinds⟩, ?_, ended⟩
          dsimp only
          rw [show r.prober? settings oracle s projectRoot (placeText owner) = some p from used]
          rfl

theorem Sees.new_in_written {seen : FileTree} (sees : Sees r settings oracle projectRoot s seen)
    {place : Place} {node : Node} (there : seen.node? place = some node)
    (new : s.probes.files.node? place ≠ some node) :
    ∃ p context bindings, r.task? settings oracle projectRoot s = some (p, context) ∧
      context.toBindings = .ok bindings ∧
      (p.written s context bindings).node? place = some node := by
  cases sees with
  | written task read => exact ⟨_, _, _, task, read, there⟩
  | asked task member =>
    obtain ⟨bindings, read, same⟩ := Prober.files_of_transcript member
    exact ⟨_, _, bindings, task, read, same ▸ there⟩
  | left =>
    rcases node?_of_respond there with before | ⟨p, context, task, ended⟩
    · exact absurd before new
    · rcases Prober.node?_of_infer ended with before | ⟨bindings, read, inside⟩
      · exact absurd before new
      · exact ⟨p, context, bindings, task, read, inside⟩

theorem task?_eq_some {p : Prober σ} {context : InferenceContext}
    (task : r.task? settings oracle projectRoot s = some (p, context)) :
    ∃ place, s.probes.files.confine r.owner projectRoot = .ok place ∧
      p.folder.scratchDir = settings.scratchDir ∧
      p.folder.projectRoot = some (s.cache.rootOf s.probes.files (placeText place)).toText := by
  unfold task? at task
  split at task
  · rename_i bindings kinds place _ _ confined
    obtain ⟨_, used, same⟩ := Option.map_eq_some_iff.mp task
    obtain ⟨rfl, rfl⟩ := Prod.mk.inj same
    refine ⟨place, confined, ?_⟩
    unfold prober? at used
    split at used
    · obtain ⟨oracle, _, rfl⟩ := Option.map_eq_some_iff.mp used
      exact ⟨rfl, rfl⟩
    · cases used
  · cases task

def probeSteps (settings : Settings) (s : ProbingState σ) (owner : Place) : Place :=
  (s.cache.rootOf s.probes.files (placeText owner)).steps ++ Path.stepsOf settings.scratchDir ++
    [Probe.fileName s.probes.clock s.probes.serial]

variable {owner base : Place}

theorem scratchPath_eq (kept : s.probes.files.Kept) (named : IsNamed owner)
    (straight : IsStraight s.probes.files.linkAt? owner)
    (relative : startsWith settings.scratchDir ['/'] = false) {folder : ProbeFolder}
    (scratchDir : folder.scratchDir = settings.scratchDir)
    (workspace : folder.projectRoot =
      some (s.cache.rootOf s.probes.files (placeText owner)).toText) :
    Probe.scratchPath folder s.probes.files =
      .ok ⟨['/'], (s.cache.rootOf s.probes.files (placeText owner)).steps ++
        Path.stepsOf settings.scratchDir⟩ := by
  obtain ⟨root, found, begins, _⟩ :=
    Workspace.rootOf_placeText s.probes.files s.cache.limits.markers named
  have above : root <+: owner := begins.trans (List.dropLast_prefix owner)
  have resolved : s.probes.files.resolve (placeText root) = .ok root := by
    obtain ⟨_, way⟩ := isRealPlace_placeText (named.of_isPrefix above)
      (straight.of_isPrefix above) s.probes.files.here
    exact kept.resolve_of_leads (nul_not_mem_placeText (named.of_isPrefix above)) way
  have same : s.cache.rootOf s.probes.files (placeText owner) = ⟨['/'], root⟩ := found
  rw [same] at workspace ⊢
  rw [Probe.scratchPath_of_root workspace (List.cons_ne_nil _ _) resolved, scratchDir]
  exact congrArg Except.ok (seenFrom_of_relative (named.of_isPrefix above) relative)

theorem writtenUnder_written (kept : s.probes.files.Kept) (named : IsNamed owner)
    (straight : IsStraight s.probes.files.linkAt? owner)
    (relative : startsWith settings.scratchDir ['/'] = false) {p : Prober σ}
    (scratchDir : p.folder.scratchDir = settings.scratchDir)
    (workspace : p.folder.projectRoot =
      some (s.cache.rootOf s.probes.files (placeText owner)).toText)
    (context : InferenceContext) (bindings : List Binding) :
    WrittenUnder
      (fun path => ∃ start, start <+: probeSteps settings s owner ∧ path = placeText start ∧
        '\x00' ∉ path)
      s.probes.files (p.written s context bindings) := by
  unfold Prober.written
  rw [(p.hosted_keeps s context.owner).1]
  refine Probe.writtenUnder_materialize _ _ fun scratch located start begins plain => ?_
  obtain rfl := Except.ok.inj
    ((scratchPath_eq kept named straight relative scratchDir workspace).symm.trans located)
  exact ⟨start, begins, rfl, plain⟩

/-- All that a request writes has a path that lies in the project root when it is normalised, and
    lies there when there are no links on the way to the probe. -/
theorem respond_writes_inside (accepted : settings.problems = [])
    (level : Path.up ∉ (Path.ofText settings.scratchDir).flatten.steps)
    (kept : s.probes.files.Kept) (acyclic : Acyclic s.probes.files.linkAt?)
    (based : s.probes.files.resolve projectRoot = .ok base)
    (held : s.probes.files.node? base.dropLast = some .directory)
    (confined : s.probes.files.confine r.owner projectRoot = .ok owner) (inner : base ≠ owner)
    (within : Workspace.MarkedWithin s.probes.files s.cache.limits.markers base owner)
    {seen : FileTree} (sees : Sees r settings oracle projectRoot s seen) {made : Place}
    {node : Node} (now : seen.node? made = some node)
    (new : s.probes.files.node? made ≠ some node) :
    ∃ path stage, Sees r settings oracle projectRoot s stage ∧ stage.Names path made ∧
      base <+: (Path.ofText path).flatten.steps ∧
      (Path.up ∉ probeSteps settings s owner →
        IsStraight s.probes.files.target? (probeSteps settings s owner) → base <+: made) := by
  obtain ⟨named, straight, inside⟩ := kept.straight_of_confine acyclic confined based
  obtain ⟨root, found, begins, own, nearest⟩ :=
    Workspace.rootOf_placeText s.probes.files s.cache.limits.markers named
  have relative := Settings.relative_of_problems accepted
  have below : base <+: root := Workspace.base_isPrefix_root inside inner within begins own nearest
  have rootNamed : IsNamed root :=
    named.of_isPrefix (begins.trans (List.dropLast_prefix owner))
  have steps : probeSteps settings s owner = root ++ Path.stepsOf settings.scratchDir ++
      [Probe.fileName s.probes.clock s.probes.serial] := by
    have same : s.cache.rootOf s.probes.files (placeText owner) = ⟨['/'], root⟩ := found
    rw [probeSteps, same]
  obtain ⟨p, context, bindings, task, read, there⟩ := sees.new_in_written now new
  obtain ⟨place, known, scratchDir, workspace⟩ := task?_eq_some task
  obtain rfl := Except.ok.inj (confined.symm.trans known)
  have grown := writtenUnder_written kept named straight relative scratchDir workspace context
    bindings
  obtain ⟨path, ⟨start, begun, rfl, plain⟩, names⟩ := grown.written made node there new
  rw [steps] at begun ⊢
  have along : base <+: root ++ Path.stepsOf settings.scratchDir ++
      [Probe.fileName s.probes.clock s.probes.serial] := by
    rw [List.append_assoc]
    exact below.trans (List.prefix_append _ _)
  have beyond : base <+: start :=
    base_isPrefix_beginning kept held grown.toGrown along begun names there new
  have entry := Probe.isEntryName_fileName s.probes.clock s.probes.serial
  have levelSteps := (Path.isLevel_stepsOf_iff relative).mpr level
  refine ⟨_, _, .written task read, names,
    base_isPrefix_flatten rootNamed entry below levelSteps begun beyond, ?_⟩
  intro onward unlinked
  have startNamed : IsNamed start :=
    isNamed_beginning rootNamed entry begun plain fun climbs => onward (begun.subset climbs)
  have startStraight : IsStraight (p.written s context bindings).target? start := by
    intro other begins
    rw [grown.links]
    exact unlinked other (begins.trans begun)
  rw [eq_of_names startNamed startStraight names]
  exact beyond

theorem respond_writes_inside_marked :
    let r : InferenceRequest :=
      ⟨"q/a.ts".toList, .obj [(['a'], .str ['x'])], .null, none, none, 0⟩
    let oracle : Option (Oracle Unit) := some (.replying ⟨some 5, .ok none⟩)
    let marker : Place := [['p'], "package.json".toList]
    let files : FileTree :=
      ⟨[], [([['p']], .directory), (marker, .file [] 1), ([['p'], ['q']], .directory)], none⟩
    let s : ProbingState Unit := ⟨⟨files, 7, 1, []⟩, .empty .default, 3, ()⟩
    let left := (r.respond Settings.default oracle "/p".toList s).2.probes.files
    let made : Place := [['p'], ".bindinfer".toList, "tmp".toList]
    files.Kept ∧ files.node? made ≠ some .directory ∧ left.node? made = some .directory ∧
      ∃ path stage, Sees r Settings.default oracle "/p".toList s stage ∧ stage.Names path made ∧
        [['p']] <+: (Path.ofText path).flatten.steps := by
  intro r oracle marker files s left made
  have kept : files.Kept := by constructor <;> decide
  have acyclic : Acyclic files.linkAt? := by
    intro link target there
    have linked := target?_of_linkAt? there
    rw [target?_eq_none (by decide)] at linked
    cases linked
  have within : Workspace.MarkedWithin files s.cache.limits.markers [['p']]
      [['p'], ['q'], "a.ts".toList] := by
    intro _ _ _
    exact ⟨[['p']], List.prefix_rfl, by decide, by decide +kernel⟩
  have there : left.node? made = some .directory := by decide +kernel
  have new : files.node? made ≠ some .directory := by decide
  obtain ⟨path, stage, sees, names, inside, _⟩ :=
    @respond_writes_inside Unit r Settings.default oracle "/p".toList s _ _ (by decide) (by decide)
      kept acyclic (by decide +kernel) (by decide) (by decide +kernel) (by decide) within left
      .left made .directory there new
  exact ⟨kept, new, there, path, stage, sees, names, inside⟩

/-- A marker above the project root takes the probe out of it. -/
theorem respond_writes_above_root :
    let r : InferenceRequest := ⟨"a.ts".toList, .obj [(['a'], .str ['x'])], .null, none, none, 0⟩
    let oracle : Option (Oracle Unit) := some (.replying ⟨some 5, .ok none⟩)
    let marker : Place := [['w'], "package.json".toList]
    let files : FileTree :=
      ⟨[], [([['w']], .directory), (marker, .file [] 1), ([['w'], ['p']], .directory)], none⟩
    let s : ProbingState Unit := ⟨⟨files, 7, 1, []⟩, .empty .default, 3, ()⟩
    let left := (r.respond Settings.default oracle "/w/p".toList s).2.probes.files
    let made : Place := [['w'], ".bindinfer".toList, "tmp".toList]
    Settings.default.problems = [] ∧ files.Kept ∧
      files.resolve "/w/p".toList = .ok [['w'], ['p']] ∧
      files.confine r.owner "/w/p".toList = .ok [['w'], ['p'], "a.ts".toList] ∧
      files.node? made = none ∧ left.node? made = some .directory ∧
      (∀ place, left.target? place = none) ∧ ¬ [['w'], ['p']] <+: made := by
  intro r oracle marker files s left made
  have kept : files.Kept := by constructor <;> decide
  have unlinked : ∀ entry ∈ left.nodes, entry.2.target? = none := by decide +kernel
  exact ⟨by decide, kept, by decide +kernel, by decide +kernel, by decide, by decide +kernel,
    target?_eq_none unlinked, by decide⟩

end InferenceRequest

end TemplateTypes
