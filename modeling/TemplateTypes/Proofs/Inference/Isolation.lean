import TemplateTypes.Proofs.Inference.Entries
import TemplateTypes.Proofs.Inference.Transcript
import TemplateTypes.Proofs.Probe.Placement

namespace TemplateTypes

open Text

/-- Bindings with the answers about them, in order. A binding without an expression is not asked
    about. -/
def ownAnswers : List Binding → List Answer → List (Binding × Option Answer)
  | [], _ => []
  | b :: more, answers =>
    if b.expression.isEmpty then (b, none) :: ownAnswers more answers
    else (b, answers.head?) :: ownAnswers more answers.tail

theorem ownAnswers_cons {b : Binding} {own : Option Answer}
    (asked : own.isNone = b.expression.isEmpty) (more : List Binding) (later : List Answer) :
    ownAnswers (b :: more) (own.toList ++ later) = (b, own) :: ownAnswers more later := by
  cases own with
  | none =>
    have blank : b.expression.isEmpty = true := asked.symm
    simp [ownAnswers, blank]
  | some answer =>
    have visible : b.expression.isEmpty = false := asked.symm
    simp [ownAnswers, visible]

theorem ownAnswers_bindings (bindings : List Binding) (answers : List Answer) :
    (ownAnswers bindings answers).map (·.1) = bindings := by
  induction bindings generalizing answers with
  | nil => rfl
  | cons b more ih =>
    unfold ownAnswers
    split <;> simp [ih]

theorem mem_of_mem_ownAnswers {bindings : List Binding} {answers : List Answer} {b : Binding}
    {answer : Answer} (member : (b, some answer) ∈ ownAnswers bindings answers) :
    answer ∈ answers := by
  induction bindings generalizing answers with
  | nil => cases member
  | cons c more ih =>
    unfold ownAnswers at member
    split at member
    · rcases List.mem_cons.mp member with same | later
      · cases same
      · exact ih later
    · rcases List.mem_cons.mp member with same | later
      · have head := (Prod.mk.inj same).2
        exact List.mem_of_mem_head? head.symm
      · exact List.mem_of_mem_tail (ih later)

namespace Prober

variable {σ : Type} {p : Prober σ}

def entryFor (p : Prober σ) (own : Binding × Option Answer) : InferredType :=
  match p.hear own.1.name own.2 with
  | .ok entry => entry
  | .error _ => .unknown own.1.name

def issueFor? (p : Prober σ) (own : Binding × Option Answer) : Option Issue :=
  match p.hear own.1.name own.2 with
  | .error (.failed fault) => some (issueOf own.1.name fault)
  | _ => none

theorem hear_inferred {name : Text} {own : Option Answer} {entry : InferredType}
    (heard : p.hear name own = .ok entry) : entry.name = name ∧ entry.inferred = true := by
  cases own with
  | none => cases heard
  | some answer =>
    unfold hear judge at heard
    dsimp only at heard
    split at heard
    · cases heard
    · cases heard
    · split at heard
      · cases heard
      · rename_i found judged
        cases heard
        unfold entryOf at judged
        split at judged
        · cases judged
        · split at judged
          · cases judged
          · cases judged
            exact ⟨rfl, rfl⟩

theorem entryFor_name (own : Binding × Option Answer) : (p.entryFor own).name = own.1.name := by
  unfold entryFor
  split
  · rename_i entry heard
    exact (hear_inferred heard).1
  · rfl

theorem issueFor?_name {own : Binding × Option Answer} {issue : Issue}
    (made : p.issueFor? own = some issue) : issue.name = some own.1.name := by
  unfold issueFor? at made
  split at made
  · cases made
    rfl
  · cases made

theorem entryFor_unknown_iff {own : Binding × Option Answer}
    (uninterrupted : own.2 ≠ some .interrupted) :
    p.entryFor own = .unknown (p.entryFor own).name ↔ (p.issueFor? own).isSome := by
  unfold entryFor issueFor?
  cases heard : p.hear own.1.name own.2 with
  | ok entry =>
    have known : entry ≠ .unknown entry.name := by
      intro unknown
      have found := (hear_inferred heard).2
      rw [unknown] at found
      cases found
    simp [known]
  | error stop =>
    cases stop with
    | interrupted => exact absurd (hear_interrupted heard) uninterrupted
    | failed fault => simp [InferredType.unknown]

theorem issues_names (own : List (Binding × Option Answer))
    (uninterrupted : ∀ mine ∈ own, mine.2 ≠ some .interrupted) :
    (own.filterMap p.issueFor?).map (·.name) =
      ((own.map p.entryFor).filter fun entry => entry = .unknown entry.name).map
        (some ·.name) := by
  induction own with
  | nil => rfl
  | cons mine more ih =>
    have unknown := entryFor_unknown_iff (p := p) (uninterrupted mine List.mem_cons_self)
    have rest := ih fun other member => uninterrupted other (List.mem_cons_of_mem _ member)
    cases made : p.issueFor? mine with
    | none =>
      rw [made] at unknown
      have known : p.entryFor mine ≠ .unknown (p.entryFor mine).name := by simpa using unknown
      simp [made, known, rest]
    | some issue =>
      rw [made] at unknown
      have missing := unknown.mpr rfl
      have named := issueFor?_name made
      rw [← entryFor_name mine] at named
      rw [List.filterMap_cons_some made, List.map_cons, List.map_cons,
        List.filter_cons_of_pos (by simpa using missing), List.map_cons, named, rest]

theorem issues_naming {own : List (Binding × Option Answer)}
    (distinct : (own.map (·.1.name)).Nodup) {mine : Binding × Option Answer}
    (there : mine ∈ own) :
    (own.filterMap p.issueFor?).filter (fun issue => issue.name = some mine.1.name) =
      (p.issueFor? mine).toList := by
  have others : ∀ more : List (Binding × Option Answer), mine.1.name ∉ more.map (·.1.name) →
      (more.filterMap p.issueFor?).filter (fun issue => issue.name = some mine.1.name) = [] := by
    intro more absent
    rw [List.filter_eq_nil_iff]
    intro issue member named
    obtain ⟨other, inMore, made⟩ := List.mem_filterMap.mp member
    rw [issueFor?_name made, decide_eq_true_eq, Option.some.injEq] at named
    exact absent (List.mem_map.mpr ⟨other, inMore, named⟩)
  induction own with
  | nil => cases there
  | cons first more ih =>
    obtain ⟨new, distinct⟩ := List.nodup_cons.mp distinct
    rw [List.filterMap_cons]
    rcases List.mem_cons.mp there with rfl | later
    · cases made : p.issueFor? mine with
      | none => simpa using others more new
      | some issue => simpa [issueFor?_name made] using others more new
    · have apart : first.1.name ≠ mine.1.name := by
        intro same
        exact new (List.mem_map.mpr ⟨mine, later, same.symm⟩)
      cases made : p.issueFor? first with
      | none => exact ih distinct later
      | some issue =>
        rw [List.filter_cons_of_neg (by simp [issueFor?_name made, apart])]
        exact ih distinct later

section

variable {files : FileTree} {artifact : Artifact}

theorem ask?_isNone {search : Binding × Nat} (s : σ)
    (known : (questionOf artifact search).position.isUnknown = search.1.expression.isEmpty) :
    ((p.ask? files artifact search s).map (·.answer)).isNone = search.1.expression.isEmpty := by
  unfold ask?
  dsimp only
  rw [known]
  cases search.1.expression.isEmpty <;> rfl

theorem ask?_question {search : Binding × Nat} {s : σ} {asked : Asked}
    (there : p.ask? files artifact search s = some asked) :
    asked.question = questionOf artifact search := by
  unfold ask? at there
  dsimp only at there
  split at there
  · cases there
  · cases there
    rfl

theorem asks_cons {search : Binding × Nat} {more : List (Binding × Nat)} {s : σ}
    (uninterrupted : ∀ asked ∈ asks p files artifact (search :: more) s,
      asked.answer ≠ .interrupted) :
    ((p.ask? files artifact search s).map (·.answer) ≠ some .interrupted) ∧
      asks p files artifact (search :: more) s =
        (p.ask? files artifact search s).toList ++
          asks p files artifact more (askBinding p files artifact search.1 search.2 s).2 := by
  have first : (p.ask? files artifact search s).map (·.answer) ≠ some .interrupted := by
    intro stopped
    obtain ⟨last, there, stopped⟩ := Option.map_eq_some_iff.mp stopped
    refine uninterrupted last ?_ stopped
    rw [asks]
    simp [there]
  refine ⟨first, ?_⟩
  have heard : (askBinding p files artifact search.1 search.2 s).1 =
      p.hear search.1.name ((p.ask? files artifact search s).map (·.answer)) :=
    askBinding_hears search.1 search.2 s
  rw [asks]
  cases asked : askBinding p files artifact search.1 search.2 s with
  | mk result next =>
    rw [asked] at heard
    cases result with
    | ok entry => rfl
    | error stop =>
      cases stop with
      | failed fault => rfl
      | interrupted => exact absurd (hear_interrupted heard.symm) first

theorem askAll_cons {search : Binding × Nat} {more : List (Binding × Nat)} {s : σ}
    {own : Option Answer} {report : Report}
    (heard : (askBinding p files artifact search.1 search.2 s).1 = p.hear search.1.name own)
    (uninterrupted : own ≠ some .interrupted)
    (rest : (askAll p files artifact more
      (askBinding p files artifact search.1 search.2 s).2).1 = .ok report) :
    (askAll p files artifact (search :: more) s).1 =
      .ok ⟨p.entryFor (search.1, own) :: report.results,
        (p.issueFor? (search.1, own)).toList ++ report.issues⟩ := by
  unfold entryFor issueFor?
  rw [askAll]
  cases asked : askBinding p files artifact search.1 search.2 s with
  | mk result next =>
    rw [asked] at heard rest
    dsimp only at heard rest ⊢
    rw [← heard]
    cases later : askAll p files artifact more next with
    | mk reported last =>
      rw [later] at rest
      obtain rfl : reported = .ok report := rest
      cases result with
      | ok entry =>
        simp only [later]
        rfl
      | error stop =>
        cases stop with
        | failed fault =>
          simp only [later]
          rfl
        | interrupted => exact absurd (hear_interrupted heard.symm) uninterrupted

theorem askAll_isolates (searches : List (Binding × Nat)) (s : σ)
    (known : ∀ search ∈ searches,
      (questionOf artifact search).position.isUnknown = search.1.expression.isEmpty)
    (uninterrupted : ∀ asked ∈ asks p files artifact searches s, asked.answer ≠ .interrupted) :
    let own := ownAnswers (searches.map (·.1))
      ((asks p files artifact searches s).map (·.answer))
    (askAll p files artifact searches s).1 =
        .ok ⟨own.map p.entryFor, own.filterMap p.issueFor?⟩ ∧
      (asks p files artifact searches s).map (·.question) =
        (searches.filter (!·.1.expression.isEmpty)).map (questionOf artifact) := by
  induction searches generalizing s with
  | nil => exact ⟨rfl, rfl⟩
  | cons search more ih =>
    have position := known search List.mem_cons_self
    have asked : ((p.ask? files artifact search s).map (·.answer)).isNone =
        search.1.expression.isEmpty := ask?_isNone s position
    obtain ⟨first, splits⟩ := asks_cons uninterrupted
    rw [splits] at uninterrupted ⊢
    obtain ⟨reports, questions⟩ := ih (askBinding p files artifact search.1 search.2 s).2
      (fun other member => known other (List.mem_cons_of_mem _ member))
      (fun asked member => uninterrupted asked (List.mem_append_right _ member))
    rw [List.map_append, ← Option.toList_map, List.map_cons, ownAnswers_cons asked]
    constructor
    · rw [askAll_cons (askBinding_hears search.1 search.2 s) first reports]
      cases issue : p.issueFor? (search.1, (p.ask? files artifact search s).map (·.answer)) <;>
        simp [issue]
    · rw [List.map_append, questions]
      cases there : p.ask? files artifact search s with
      | none =>
        rw [there] at asked
        have blank : search.1.expression.isEmpty = true := asked.symm
        simp [blank]
      | some asked' =>
        rw [there] at asked
        have visible : search.1.expression.isEmpty = false := asked.symm
        simp [visible, ask?_question there]

end

def answered (p : Prober σ) (s : ProbingState σ) (context : InferenceContext)
    (bindings : List Binding) : List (Binding × Option Answer) :=
  ownAnswers bindings ((p.transcript s context).map (·.answer))

def Uninterrupted (p : Prober σ) (s : ProbingState σ) (context : InferenceContext) : Prop :=
  ∀ asked ∈ p.transcript s context, asked.answer ≠ .interrupted

theorem answered_names {s : ProbingState σ} {context : InferenceContext} {bindings : List Binding}
    (read : context.toBindings = .ok bindings) :
    (p.answered s context bindings).map (·.1.name) = context.bindings.map (·.1) := by
  have firsts := congrArg (List.map (·.name))
    (ownAnswers_bindings bindings ((p.transcript s context).map (·.answer)))
  rw [List.map_map, names_toBindings read] at firsts
  exact firsts

/-- The probe for a context is written, and no line before the template looks like the one that
    begins it. -/
structure Created (p : Prober σ) (s : ProbingState σ) (context : InferenceContext)
    (bindings : List Binding) (artifact : Artifact) : Prop where
  owned : ¬ allBlank context.owner
  read : context.toBindings = .ok bindings
  written : (Probe.materialize p.folder s.probes (Probe.template bindings)
    (p.hosted s context.owner).1).1 = .ok artifact
  plain : ∀ scratch, Probe.scratchPath p.folder s.probes.files = .ok scratch →
    ∀ h ∈ (p.hosted s context.owner).1, ∀ specifier,
      Probe.importPath ⟨['/'], s.probes.files.here⟩ (Probe.nextPath s.probes scratch) h.file =
          .ok specifier →
        includes (Probe.hostImport h.className specifier) Probe.marker = false

section

variable {s : ProbingState σ} {context : InferenceContext} {bindings : List Binding}
  {artifact : Artifact}

theorem Created.withOracle {τ : Type} (created : p.Created s context bindings artifact)
    (oracle : Oracle τ) (state : τ) :
    (p.withOracle oracle).Created (s.withOracle state) context bindings artifact := by
  obtain ⟨owned, read, written, plain⟩ := created
  constructor
  · exact owned
  · exact read
  · rw [hosted_withOracle]
    exact written
  · rw [hosted_withOracle]
    exact plain

theorem Created.known (created : p.Created s context bindings artifact) :
    ∀ search ∈ searches bindings,
      (questionOf artifact search).position.isUnknown = search.1.expression.isEmpty := by
  obtain ⟨_, probes, made⟩ : ∃ written probes, Probe.materialize p.folder s.probes
      (Probe.template bindings) (p.hosted s context.owner).1 = (written, probes) := ⟨_, _, rfl⟩
  obtain rfl : _ = Except.ok artifact := by simpa [made] using created.written
  obtain ⟨holds, header, footer, embeds⟩ := Probe.embeds_of_materialize made created.plain
  intro search member
  obtain ⟨i, there⟩ := List.mem_iff_getElem?.mp member
  obtain ⟨binding, starts⟩ := List.getElem?_zip_eq_some.mp there
  rw [List.getElem?_map, Probe.valueStarts_at binding, Option.map_some, Option.some.injEq]
    at starts
  by_cases blank : search.1.expression = []
  · have nowhere : artifact.positionOf search.1.expression search.2 = .origin := by
      rw [blank]
      rfl
    rw [questionOf, nowhere, blank]
    rfl
  · have position := embeds.positionOf_value holds binding blank
    rw [holds, starts, Nat.add_assoc] at position
    have elsewhere := embeds.ofOffset_ne_origin
      (search.2 + hoverAnchor (escapeTemplate search.1.expression))
    rw [← position] at elsewhere
    have visible : search.1.expression.isEmpty = false := by simpa using blank
    rw [visible]
    exact beq_eq_false_iff_ne.mpr elsewhere

/-- When no answer is an interruption, there is a report, and its parts come from the answers one
    by one. -/
theorem Created.infer_eq (created : p.Created s context bindings artifact)
    (uninterrupted : p.Uninterrupted s context) :
    (p.infer s context).1 = .ok ⟨(p.answered s context bindings).map p.entryFor,
        (p.answered s context bindings).filterMap p.issueFor?⟩ ∧
      (p.transcript s context).map (·.question) =
        ((searches bindings).filter (!·.1.expression.isEmpty)).map (questionOf artifact) := by
  by_cases empty : context.bindings.isEmpty
  · have nothing : context.bindings = [] := by simpa using empty
    obtain rfl : bindings = [] := by
      have names := names_toBindings created.read
      simpa [nothing] using names
    unfold transcript
    rw [infer, if_pos empty, infer, if_pos empty]
    exact ⟨rfl, rfl⟩
  · have probing : p.transcript s context =
        p.probeAsks (p.hosted s context.owner).2 bindings (p.hosted s context.owner).1 := by
      unfold transcript
      rw [infer_recording_probes empty created.owned created.read]
      rfl
    have kept := (p.hosted_keeps s context.owner).1
    have written := created.written
    rw [infer_probes p s empty created.owned created.read]
    unfold Uninterrupted at uninterrupted
    unfold answered
    rw [probing] at uninterrupted ⊢
    unfold probe probeAsks at *
    rw [← kept] at written
    cases made : Probe.materialize p.folder (p.hosted s context.owner).2.probes
        (Probe.template bindings) (p.hosted s context.owner).1 with
    | mk result probes =>
      rw [made] at written uninterrupted
      obtain rfl : result = .ok artifact := written
      have isolated := askAll_isolates (searches bindings) (p.hosted s context.owner).2.oracle
        created.known uninterrupted
      rw [bindings_searches] at isolated
      exact isolated

/-- The oracle is asked once about each binding with an expression, in order. There is an issue for
    each unknown entry and no other, and what an inference reports on a binding is the same for
    all oracles that answer alike about that binding. -/
theorem infer_isolates_failures (created : p.Created s context bindings artifact)
    (distinct : (context.bindings.map (·.1)).Nodup)
    (uninterrupted : p.Uninterrupted s context) :
    ∃ report, (p.infer s context).1 = .ok report ∧
      (p.transcript s context).map (·.question) =
        ((searches bindings).filter (!·.1.expression.isEmpty)).map (questionOf artifact) ∧
      report.results.map (·.name) = context.bindings.map (·.1) ∧
      report.issues.map (·.name) =
        (report.results.filter fun entry => entry = .unknown entry.name).map (some ·.name) ∧
      ∀ {τ : Type} (oracle : Oracle τ) (state : τ),
        (p.withOracle oracle).Uninterrupted (s.withOracle state) context →
        ∃ other, ((p.withOracle oracle).infer (s.withOracle state) context).1 = .ok other ∧
          ∀ (i : Nat) (own : Binding × Option Answer),
            (p.answered s context bindings)[i]? = some own →
            ((p.withOracle oracle).answered (s.withOracle state) context bindings)[i]? =
              some own →
            report.results[i]? = other.results[i]? ∧
              report.issues.filter (fun issue => issue.name = some own.1.name) =
                other.issues.filter (fun issue => issue.name = some own.1.name) := by
  obtain ⟨reports, questions⟩ := created.infer_eq uninterrupted
  refine ⟨_, reports, questions, ?_, ?_, ?_⟩
  · rw [List.map_map]
    calc (p.answered s context bindings).map ((·.name) ∘ p.entryFor)
        = (p.answered s context bindings).map (·.1.name) :=
          List.map_congr_left fun own _ => entryFor_name own
      _ = context.bindings.map (·.1) := answered_names created.read
  · apply issues_names
    rintro ⟨b, answer⟩ member rfl
    obtain ⟨asked, there, stopped⟩ := List.mem_map.mp (mem_of_mem_ownAnswers member)
    exact uninterrupted asked there stopped
  · intro τ oracle state others
    have othersReport := ((created.withOracle oracle state).infer_eq others).1
    refine ⟨_, othersReport, fun i own mine theirs => ?_⟩
    constructor
    · rw [List.getElem?_map, List.getElem?_map, mine, theirs]
      rfl
    · have named := issues_naming (p := p)
        (by rw [answered_names created.read]; exact distinct) (List.mem_of_getElem? mine)
      have namedThere := issues_naming (p := p.withOracle oracle)
        (by rw [answered_names created.read]; exact distinct) (List.mem_of_getElem? theirs)
      exact named.trans namedThere.symm

end

/-- The first question is answered with a type, the others are not answered at all. -/
def flagging : Oracle Nat where
  call n _ _ time :=
    if n = 0 ∧ 5 ≤ time then
      some (.result (.ok (some [.str "\x60\x60\x60ts\nconst x: string\n\x60\x60\x60".toList])))
    else none
  after n _ _ _ := n + 1

theorem exists_ok_of_isOk {ε α : Type} {result : Except ε α} (ok : result.isOk = true) :
    ∃ a, result = .ok a := by
  cases result with
  | ok a => exact ⟨a, rfl⟩
  | error e => cases ok

theorem infer_isolates_failures_unanswered :
    let p : Prober Nat :=
      ⟨⟨['t'], some ['/', 'p'], []⟩, ⟨3000, QueryClient.typeScriptTags⟩, flagging, 500, true⟩
    let s : ProbingState Nat :=
      ⟨⟨⟨[], [([['p']], .directory), ([['p'], "a.ts".toList],
        .file (Utf8.encode "@Component({}) export class A {}".toList) 1)], none⟩, 7, 1, []⟩,
        .empty .default, 3, 0⟩
    let context : InferenceContext :=
      ⟨"/p/a.ts".toList, [(['a'], ['x']), (['b'], []), (['c'], ['x'])], []⟩
    let bindings : List Binding :=
      [⟨['a'], ['x'], .input⟩, ⟨['b'], [], .input⟩, ⟨['c'], ['x'], .input⟩]
    ∃ artifact, p.Created s context bindings artifact ∧ p.Uninterrupted s context ∧
      (p.transcript s context).length = 2 ∧
      ∃ report, (p.infer s context).1 = .ok report ∧
        report.results.map (·.type) =
          ["string".toList, TypeText.unknown, TypeText.unknown] ∧
        report.issues.map (·.name) = [some ['b'], some ['c']] := by
  intro p s context bindings
  have host : (p.hosted s context.owner).1 = some ⟨['A'], "/p/a.ts".toList⟩ := by decide +kernel
  have uninterrupted : p.Uninterrupted s context := by
    have all : ((p.transcript s context).all fun asked =>
        !(asked.answer matches .interrupted)) = true := by decide +kernel
    intro asked member stopped
    have heard := List.all_eq_true.mp all asked member
    rw [stopped] at heard
    cases heard
  obtain ⟨artifact, written⟩ : ∃ artifact, (Probe.materialize p.folder s.probes
      (Probe.template bindings) (some ⟨['A'], "/p/a.ts".toList⟩)).1 = .ok artifact := by
    apply exists_ok_of_isOk
    decide +kernel
  have plain : ∀ scratch, Probe.scratchPath p.folder s.probes.files = .ok scratch →
      ∀ h ∈ some (⟨['A'], "/p/a.ts".toList⟩ : ComponentHost), ∀ specifier,
        Probe.importPath ⟨['/'], []⟩ (Probe.nextPath s.probes scratch) h.file = .ok specifier →
          includes (Probe.hostImport h.className specifier) Probe.marker = false := by
    intro scratch located h isHost specifier found
    have below : (Probe.scratchPath p.folder s.probes.files).toOption =
        some ⟨['/'], [['p'], ['t']]⟩ := by decide +kernel
    have imported : (Probe.importPath ⟨['/'], []⟩
        (Probe.nextPath s.probes ⟨['/'], [['p'], ['t']]⟩) "/p/a.ts".toList).toOption =
          some "../a".toList := by decide +kernel
    rw [located] at below
    cases below
    cases isHost
    rw [found] at imported
    cases imported
    decide +kernel
  have created : p.Created s context bindings artifact := by
    constructor
    · decide +kernel
    · rfl
    · rw [host]
      exact written
    · rw [host]
      exact plain
  obtain ⟨report, reports, _, _, issues, _⟩ :=
    infer_isolates_failures created (by decide) uninterrupted
  have types : (p.infer s context).1.toOption.map (·.results.map (·.type)) =
      some ["string".toList, TypeText.unknown, TypeText.unknown] := by decide +kernel
  have missing : (p.infer s context).1.toOption.map
      (fun report => (report.results.filter fun entry => entry = .unknown entry.name).map
        (some ·.name)) = some [some ['b'], some ['c']] := by decide +kernel
  rw [reports] at types missing
  exact ⟨artifact, created, uninterrupted, by decide +kernel, report, reports,
    Option.some.inj types, issues.trans (Option.some.inj missing)⟩

end Prober

end TemplateTypes
