import Mathlib.Data.List.Forall2
import TemplateTypes.Proofs.Inference.Isolation
import TemplateTypes.Proofs.Probe.Lifetime
import TemplateTypes.Proofs.Resolver.Independence

namespace TemplateTypes

open Text

namespace Prober

variable {σ : Type}

theorem probe_here (p : Prober σ) (s : ProbingState σ) (map : BindingMap)
    (bindings : List Binding) (host : Option ComponentHost) :
    (p.probe s map bindings host).2.probes.files.here = s.probes.files.here := by
  have made := Probe.materialize_here p.folder s.probes (Probe.template bindings) host
  unfold probe
  split
  · rename_i refused
    rwa [refused] at made
  · rename_i artifact probes written
    rw [written] at made
    exact (Probe.dispose_here probes artifact.path).trans made

theorem probe_cache (p : Prober σ) (s : ProbingState σ) (map : BindingMap)
    (bindings : List Binding) (host : Option ComponentHost) :
    (p.probe s map bindings host).2.cache = s.cache := by
  unfold probe
  split <;> rfl

theorem infer_here (p : Prober σ) (s : ProbingState σ) (context : InferenceContext) :
    (p.infer s context).2.probes.files.here = s.probes.files.here := by
  cases p.inferred s context with
  | unprobed result infers => rw [infers]
  | probed bindings read infers => rw [infers, probe_here, (p.hosted_keeps s context.owner).1]

theorem infer_cache (p : Prober σ) (s : ProbingState σ) (context : InferenceContext) :
    (p.infer s context).2.cache = s.cache ∨
      (p.infer s context).2.cache =
        (s.cache.attach s.probes.files s.now context.owner).2 := by
  cases p.inferred s context with
  | unprobed result infers => exact .inl (by rw [infers])
  | probed bindings read infers =>
    rw [infers, probe_cache]
    unfold hosted hostOf
    split
    · right
      split
      · rename_i attached
        rw [attached]
      · rename_i attached
        rw [attached]
    · exact .inl rfl

theorem infer_coherent {p : Prober σ} {s : ProbingState σ} {context : InferenceContext}
    {path : Text} (coherent : s.cache.ReadsCurrent s.probes.files path) :
    (p.infer s context).2.cache.ReadsCurrent s.probes.files path ∧
      (p.infer s context).2.cache.limits = s.cache.limits := by
  rcases p.infer_cache s context with same | attached
  · rw [same]
    exact ⟨coherent, rfl⟩
  · have attaches :=
      WorkspaceCache.attach_attachesTo coherent s.probes.files s.now context.owner
    rw [attached]
    exact ⟨attaches.readsCurrent coherent, attaches.limits⟩

end Prober

namespace Merge

theorem find?_entries (bindings : BindingMap) (signature : Text → Option Text) (name : Text) :
    (bindings.map fun b => Local.entry b.1 (signature b.2)).find? (·.name == name) =
      (bindings.lookup name).map fun expression => Local.entry name (signature expression) := by
  induction bindings with
  | nil => rfl
  | cons binding more ih =>
    obtain ⟨own, expression⟩ := binding
    rw [List.map_cons, List.find?_cons, Local.entry_name, List.lookup_cons]
    by_cases same : own = name
    · simp [same]
    · simp [ih, beq_eq_false_iff_ne.mpr same, beq_eq_false_iff_ne.mpr (Ne.symm same)]

theorem lookup_weak (bindings : BindingMap) (results : List InferredType) (name : Text) :
    (results.filterMap fun entry =>
        (bindings.lookup entry.name).map fun expression => (entry.name, expression)).lookup name =
      if name ∈ results.map (·.name) then bindings.lookup name else none := by
  induction results with
  | nil => rfl
  | cons entry more ih =>
    rw [List.filterMap_cons]
    by_cases same : name = entry.name
    · subst same
      cases known : bindings.lookup entry.name with
      | none => simp [ih, known]
      | some expression => simp
    · cases known : bindings.lookup entry.name with
      | none => simp [ih, same]
      | some expression => simp [ih, same, List.lookup_cons, beq_eq_false_iff_ne.mpr same]

theorem lookup_weakBindings {bindings : BindingMap} {results : List InferredType}
    {current : InferredType} (member : current ∈ results) (weak : isWeak current = true) :
    (weakBindings bindings results).lookup current.name = bindings.lookup current.name := by
  have named : current.name ∈ (results.filter isWeak).map (·.name) :=
    List.mem_map_of_mem (List.mem_filter.mpr ⟨member, weak⟩)
  rw [weakBindings, lookup_weak, if_pos named]

/-- What becomes of an oracle's entry and the source file's entry for the same name. -/
structure Joins (current candidate joined : InferredType) : Prop where
  chosen : joined =
    if current.inferred = true ∧ current.confidence ≠ .low then current
    else if candidate.inferred = true ∧
        (current.inferred = false ∨ current.confidence.rank < candidate.confidence.rank) then
      candidate
    else current
  inferred : current.inferred = true → joined.inferred = true
  rank : current.confidence.rank ≤ joined.confidence.rank

theorem isWeak_iff {entry : InferredType} :
    isWeak entry = true ↔ ¬ (entry.inferred = true ∧ entry.confidence ≠ .low) := by
  unfold isWeak
  cases entry.inferred <;> simp

theorem joins_of_find? {candidates : List InferredType} {current candidate : InferredType}
    (wellFormed : current.WellFormed)
    (found : isWeak current = true → candidates.find? (·.name == current.name) = some candidate) :
    Joins current candidate (entryFor candidates current) := by
  by_cases weak : isWeak current = true
  · have replaced : entryFor candidates current = better current candidate := by
      rw [entryFor, if_pos weak, found weak]
    rw [replaced]
    unfold better
    by_cases improves : candidate.inferred = true ∧
        (current.inferred = false ∨ current.confidence.rank < candidate.confidence.rank)
    · rw [if_pos (by simpa using improves)]
      -- An entry that is not inferred has the lowest rank.
      refine ⟨?_, fun _ => improves.1, ?_⟩
      · rw [if_neg (isWeak_iff.mp weak), if_pos improves]
      · rcases improves.2 with missing | higher
        · rw [(wellFormed.missing missing).2.1]
          exact Nat.zero_le _
        · exact Nat.le_of_lt higher
    · rw [if_neg (by simpa using improves)]
      refine ⟨?_, id, Nat.le_refl _⟩
      rw [if_neg (isWeak_iff.mp weak), if_neg improves]
  · have kept : entryFor candidates current = current := by rw [entryFor, if_neg weak]
    rw [kept]
    refine ⟨?_, id, Nat.le_refl _⟩
    rw [if_pos (Decidable.not_not.mp fun confident => weak (isWeak_iff.mpr confident))]

theorem joins_entries {bindings : BindingMap} {results : List InferredType}
    (answers : Answers (bindings.map (·.1)) results) (signature : Text → Option Text) :
    List.Forall₂ (fun current merged => ∃ candidate,
        (bindings.map fun b => Local.entry b.1 (signature b.2)).find? (·.name == current.name) =
            some candidate ∧
          Joins current candidate merged)
      results (results.map (entryFor
        ((weakBindings bindings results).map fun b => Local.entry b.1 (signature b.2)))) := by
  rw [List.forall₂_map_right_iff, List.forall₂_same]
  intro current member
  have named : current.name ∈ bindings.map (·.1) :=
    answers.inOrder ▸ List.mem_map_of_mem member
  obtain ⟨binding, there, own⟩ := List.mem_map.mp named
  obtain ⟨expression, known⟩ : ∃ expression, bindings.lookup current.name = some expression :=
    Option.isSome_iff_exists.mp (List.lookup_isSome_iff.mpr ⟨binding, there, by simp [own]⟩)
  refine ⟨Local.entry current.name (signature expression), ?_, ?_⟩
  · rw [find?_entries, known, Option.map_some]
  · refine joins_of_find? (answers.wellFormed current member) fun weak => ?_
    rw [find?_entries, lookup_weakBindings member weak, known, Option.map_some]

variable {σ : Type}

theorem fill_report (s : ProbingState σ) (context : InferenceContext) (report : Report) :
    (fill s context report).1 = { report with
      results := report.results.map (entryFor (Local.infer s.probes.files s.now context.owner
        (weakBindings context.bindings report.results) s.cache).1) } := by
  unfold fill
  dsimp only
  split
  · rename_i none
    have untouched : report.results.map (entryFor []) = report.results := by
      refine (List.map_congr_left fun entry _ => ?_).trans (List.map_id _)
      unfold entryFor
      split <;> rfl
    rw [List.isEmpty_iff.mp none, Local.infer, untouched]
  · rfl

end Merge

/-- After the oracle has been asked, the source file says of each binding what it would have said
    before. -/
theorem Local.infer_after {σ : Type} {p : Prober σ} {s : ProbingState σ}
    {context : InferenceContext}
    (coherent : s.cache.ReadsCurrent s.probes.files
      (WorkspaceCache.placeOf s.probes.files context.owner))
    (unchanged : ((p.infer s context).2.probes.files.read
        (WorkspaceCache.placeOf s.probes.files context.owner)).toOption =
      (s.probes.files.read (WorkspaceCache.placeOf s.probes.files context.owner)).toOption)
    (now : Int) (bindings : BindingMap) :
    (infer (p.infer s context).2.probes.files now context.owner bindings
        (p.infer s context).2.cache).1 =
      bindings.map fun b =>
        entry b.1 (signature? s.cache.limits s.probes.files context.owner b.2) := by
  have here := p.infer_here s context
  have place := WorkspaceCache.placeOf_congr here context.owner
  obtain ⟨kept, limits⟩ := Prober.infer_coherent (p := p) coherent
  have current : (p.infer s context).2.cache.ReadsCurrent (p.infer s context).2.probes.files
      (WorkspaceCache.placeOf s.probes.files context.owner) :=
    kept.imp fun _ _ _ _ current => current.congr unchanged
  rw [← place] at current
  rw [infer_eq now current, limits]
  exact List.map_congr_left fun b _ => by rw [signature?_congr here unchanged]

/-- Each entry of the joined report is the oracle's entry or, where that is weak, the one that the
    source file alone gives for the same name if it is better. -/
theorem inferTypes_never_worse {σ : Type} {p : Prober σ} {s between : ProbingState σ}
    {context : InferenceContext} {report : Report} {limits : WorkspaceLimits}
    {calls : List WorkspaceCache.Call} (reached : s.cache = WorkspaceCache.run limits calls)
    (upToDate : s.cache.UpToDate s.probes.files)
    (asked : p.infer s context = (.ok report, between))
    (unchanged :
      (between.probes.files.read (WorkspaceCache.placeOf s.probes.files context.owner)).toOption =
        (s.probes.files.read (WorkspaceCache.placeOf s.probes.files context.owner)).toOption) :
    ∃ joined own, (inferTypes (some p) s context).1 = .ok joined ∧
      (inferTypes none s context).1 = .ok own ∧
      joined.issues = report.issues ∧
      joined.results.map (·.name) = report.results.map (·.name) ∧
      List.Forall₂ (fun current merged => ∃ candidate,
          own.results.find? (·.name == current.name) = some candidate ∧
            Merge.Joins current candidate merged)
        report.results joined.results := by
  have answers := Prober.answers_infer asked
  by_cases empty : context.bindings.isEmpty = true
  · have nothing : report = ⟨[], []⟩ := by
      rw [Prober.infer, if_pos empty] at asked
      simpa using (congrArg Prod.fst asked).symm
    refine ⟨⟨[], []⟩, ⟨[], []⟩, ?_, ?_, ?_⟩
    · rw [inferTypes, if_pos empty]
    · rw [inferTypes, if_pos empty]
    · rw [nothing]
      exact ⟨rfl, rfl, .nil⟩
  · have coherent : s.cache.ReadsCurrent s.probes.files
        (WorkspaceCache.placeOf s.probes.files context.owner) := by
      rw [reached] at upToDate ⊢
      exact upToDate.coherent _
    have left : (p.infer s context).2 = between := by rw [asked]
    rw [← left] at unchanged
    have after := Local.infer_after coherent unchanged between.now
      (Merge.weakBindings context.bindings report.results)
    have alone := Local.infer_eq s.now coherent context.bindings
    rw [left] at after
    refine ⟨(Merge.fill between context report).1, ⟨context.bindings.map fun b => Local.entry b.1
      (Local.signature? s.cache.limits s.probes.files context.owner b.2), []⟩, ?_, ?_, ?_, ?_, ?_⟩
    · rw [inferTypes, if_neg empty]
      simp only [asked]
    · rw [inferTypes, if_neg empty, ← alone]
    · rw [Merge.fill_report]
    · rw [(Merge.answers_fill between context answers).inOrder, answers.inOrder]
    · rw [Merge.fill_report, after]
      exact Merge.joins_entries answers _

/-- The oracle's only answer is kept, of the other two entries one can be filled in. -/
theorem inferTypes_never_worse_partly_answered :
    let p : Prober Nat :=
      ⟨⟨['t'], some ['/', 'p'], []⟩, ⟨3000, QueryClient.typeScriptTags⟩, Prober.flagging, 500, true⟩
    let path := "/p/a.ts".toList
    let files : FileTree :=
      ⟨[], [([['p']], .directory), ([['p'], "a.ts".toList],
        .file (Utf8.encode "@Component({}) export class A { n: number }".toList) 1)], none⟩
    let calls : List WorkspaceCache.Call := [⟨files, 2, .attach path⟩]
    let s : ProbingState Nat := ⟨⟨files, 7, 1, []⟩, .run .default calls, 3, 0⟩
    let context : InferenceContext := ⟨path, [(['a'], ['n']), (['b'], ['n']), (['c'], ['m'])], []⟩
    s.cache.UpToDate files ∧
      ∃ report joined own, (p.infer s context).1 = .ok report ∧
        (inferTypes (some p) s context).1 = .ok joined ∧
        (inferTypes none s context).1 = .ok own ∧ joined.issues = report.issues ∧
        report.results.map (·.type) = ["string".toList, TypeText.unknown, TypeText.unknown] ∧
        own.results.map (·.type) = ["number".toList, "number".toList, TypeText.unknown] ∧
        joined.results.map (·.type) = ["string".toList, "number".toList, TypeText.unknown] := by
  intro p path files calls s context
  have reached : s.cache = WorkspaceCache.run .default calls := by simp only [s]
  have made : s.cache.Coherent fun entry =>
      entry.Reads WorkspaceLimits.default.parser files := by
    rw [reached]
    apply WorkspaceCache.run_coherent
    intro call member entry _ _ reads
    rw [List.mem_singleton.mp member] at reads
    exact reads
  have upToDate : s.cache.UpToDate files := fun w member entry inParses _ =>
    ⟨entry.modified, ((made.each w member).known entry inParses).read⟩
  have runs : (p.infer s context).1.toOption.map (·.results.map (·.type)) =
        some ["string".toList, TypeText.unknown, TypeText.unknown] ∧
      ((p.infer s context).2.probes.files.read
          (WorkspaceCache.placeOf s.probes.files context.owner)).toOption =
        (s.probes.files.read (WorkspaceCache.placeOf s.probes.files context.owner)).toOption ∧
      (inferTypes none s context).1.toOption.map (·.results.map (·.type)) =
        some ["number".toList, "number".toList, TypeText.unknown] ∧
      (inferTypes (some p) s context).1.toOption.map (·.results.map (·.type)) =
        some ["string".toList, "number".toList, TypeText.unknown] := by decide +kernel
  obtain ⟨first, unchanged, second, third⟩ := runs
  cases reports : p.infer s context with
  | mk result between =>
    rw [reports] at first unchanged
    cases result with
    | error stop => cases first
    | ok report =>
      obtain ⟨joined, own, joins, alone, issues, _⟩ :=
        inferTypes_never_worse reached upToDate reports unchanged
      rw [alone] at second
      rw [joins] at third
      exact ⟨upToDate, report, joined, own, rfl, joins, alone, issues, Option.some.inj first,
        Option.some.inj second, Option.some.inj third⟩

end TemplateTypes
