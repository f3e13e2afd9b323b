import TemplateTypes.Inference.Probing

namespace TemplateTypes

open Text

/-- A question with the files as they are when it is asked, and what became of it. -/
structure Asked where
  files : FileTree
  question : Question
  answer : Answer

def Oracle.recording {σ : Type} (oracle : Oracle σ) : Oracle (σ × List Asked) where
  call s := oracle.call s.1
  after s files q deadline :=
    let (answer, next) := oracle.ask s.1 files q deadline
    (next, s.2 ++ [⟨files, q, answer⟩])

section

variable {σ τ : Type}

def Prober.withOracle (p : Prober σ) (oracle : Oracle τ) : Prober τ :=
  ⟨p.folder, p.client, oracle, p.timeoutMs, p.findsHost⟩

def ProbingState.withOracle (s : ProbingState σ) (oracle : τ) : ProbingState τ :=
  ⟨s.probes, s.cache, s.now, oracle⟩

end

namespace Prober

variable {σ : Type}

def recording (p : Prober σ) : Prober (σ × List Asked) := p.withOracle p.oracle.recording

def transcript (p : Prober σ) (s : ProbingState σ) (context : InferenceContext) : List Asked :=
  (p.recording.infer (s.withOracle (s.oracle, [])) context).2.oracle.2

/-- The entry that an answer about a binding comes to; a binding without an answer was not asked
    about. -/
def hear (p : Prober σ) (name : Text) : Option Answer → Except Stop InferredType
  | none => .error (.failed (.queryFailure "Expression not found in probe component".toList))
  | some answer =>
    judge name (QueryClient.conclude p.client.tags (p.client.timeout (some p.timeoutMs)) answer)

theorem hear_interrupted {p : Prober σ} {name : Text} {own : Option Answer}
    (stopped : p.hear name own = .error .interrupted) : own = some .interrupted := by
  cases own with
  | none => cases stopped
  | some answer =>
    cases answer with
    | interrupted => rfl
    | late => cases stopped
    | inTime elapsed outcome =>
      cases outcome with
      | error fault => cases stopped
      | ok candidates =>
        unfold hear QueryClient.conclude at stopped
        dsimp only at stopped
        split at stopped
        · rename_i result judged
          unfold judge at stopped
          cases result with
          | missed message code candidates => cases stopped
          | found hover candidates =>
            dsimp only at stopped
            split at stopped <;> cases stopped
        · cases stopped

def questionOf (artifact : Artifact) (search : Binding × Nat) : Question :=
  ⟨artifact.uri, artifact.positionOf search.1.expression search.2⟩

def ask? (p : Prober σ) (files : FileTree) (artifact : Artifact) (search : Binding × Nat) (s : σ) :
    Option Asked :=
  let q := questionOf artifact search
  if q.position.isUnknown then none
  else some ⟨files, q, (p.oracle.ask s files q (p.client.timeout (some p.timeoutMs))).1⟩

variable {p : Prober σ} {files : FileTree} {artifact : Artifact}

theorem askBinding_hears (b : Binding) (start : Nat) (s : σ) :
    (askBinding p files artifact b start s).1 =
      p.hear b.name ((p.ask? files artifact (b, start) s).map (·.answer)) := by
  unfold askBinding ask? questionOf
  dsimp only
  split <;> rfl

theorem askBinding_recording (b : Binding) (start : Nat) (s : σ) (log : List Asked) :
    askBinding p.recording files artifact b start (s, log) =
      ((askBinding p files artifact b start s).1, (askBinding p files artifact b start s).2,
        log ++ (p.ask? files artifact (b, start) s).toList) := by
  unfold askBinding ask? questionOf
  dsimp only
  split
  · simp
  · rfl

def asks (p : Prober σ) (files : FileTree) (artifact : Artifact) :
    List (Binding × Nat) → σ → List Asked
  | [], _ => []
  | search :: more, s =>
    (p.ask? files artifact search s).toList ++
      match askBinding p files artifact search.1 search.2 s with
      | (.error .interrupted, _) => []
      | (_, s) => asks p files artifact more s

theorem askAll_recording (searches : List (Binding × Nat)) (s : σ) (log : List Asked) :
    askAll p.recording files artifact searches (s, log) =
      ((askAll p files artifact searches s).1, (askAll p files artifact searches s).2,
        log ++ asks p files artifact searches s) := by
  induction searches generalizing s log with
  | nil => simp [askAll, asks]
  | cons search more ih =>
    obtain ⟨b, start⟩ := search
    unfold askAll asks
    rw [askBinding_recording]
    cases first : askBinding p files artifact b start s with
    | mk result next =>
      cases result with
      | ok entry =>
        simp only [ih]
        cases askAll p files artifact more next with
        | mk rest last => cases rest <;> simp
      | error stop =>
        cases stop with
        | interrupted => simp
        | failed fault =>
          simp only [ih]
          cases askAll p files artifact more next with
          | mk rest last => cases rest <;> simp

theorem hostOf_withOracle {τ : Type} (s : ProbingState σ) (oracle : τ) (owner : Text) :
    hostOf (s.withOracle oracle) owner =
      ((hostOf s owner).1, (hostOf s owner).2.withOracle oracle) := by
  unfold hostOf ProbingState.withOracle
  dsimp only
  split <;> rfl

/-- What is asked while the probe stands; nothing when it could not be written. -/
def probeAsks (p : Prober σ) (s : ProbingState σ) (bindings : List Binding)
    (host : Option ComponentHost) : List Asked :=
  match Probe.materialize p.folder s.probes (Probe.template bindings) host with
  | (.error _, _) => []
  | (.ok artifact, probes) => asks p probes.files artifact (searches bindings) s.oracle

theorem probe_recording (p : Prober σ) (s : ProbingState σ) (map : BindingMap)
    (bindings : List Binding) (host : Option ComponentHost) :
    p.recording.probe (s.withOracle (s.oracle, [])) map bindings host =
      ((p.probe s map bindings host).1, (p.probe s map bindings host).2.withOracle
        ((p.probe s map bindings host).2.oracle, p.probeAsks s bindings host)) := by
  unfold probe probeAsks
  dsimp only [recording, withOracle, ProbingState.withOracle]
  cases Probe.materialize p.folder s.probes (Probe.template bindings) host with
  | mk written probes =>
    cases written with
    | error e => rfl
    | ok artifact =>
      have recorded : askAll p.recording probes.files artifact (searches bindings) (s.oracle, []) =
          ((askAll p probes.files artifact (searches bindings) s.oracle).1,
            (askAll p probes.files artifact (searches bindings) s.oracle).2,
            [] ++ asks p probes.files artifact (searches bindings) s.oracle) :=
        askAll_recording _ _ _
      rw [recording, withOracle] at recorded
      dsimp only
      rw [recorded]
      rfl

/-- The state in which the probe for an owner's file is written, and the component it extends. -/
def hosted (p : Prober σ) (s : ProbingState σ) (owner : Text) :
    Option ComponentHost × ProbingState σ :=
  if p.findsHost then hostOf s owner else (none, s)

theorem hosted_keeps (p : Prober σ) (s : ProbingState σ) (owner : Text) :
    (p.hosted s owner).2.probes = s.probes ∧ (p.hosted s owner).2.oracle = s.oracle := by
  unfold hosted hostOf
  split
  · split <;> exact ⟨rfl, rfl⟩
  · exact ⟨rfl, rfl⟩

theorem hosted_withOracle {τ : Type} (p : Prober σ) (s : ProbingState σ) (oracle : Oracle τ)
    (state : τ) (owner : Text) :
    (p.withOracle oracle).hosted (s.withOracle state) owner =
      ((p.hosted s owner).1, (p.hosted s owner).2.withOracle state) := by
  by_cases finds : p.findsHost = true
  · simp only [hosted, withOracle, finds, ↓reduceIte]
    exact hostOf_withOracle s state owner
  · simp only [hosted, withOracle, finds, Bool.false_eq_true, ↓reduceIte]

section

variable {s : ProbingState σ} {context : InferenceContext} {bindings : List Binding}

theorem infer_probes (p : Prober σ) (s : ProbingState σ) (occupied : ¬ context.bindings.isEmpty)
    (owned : ¬ allBlank context.owner) (read : context.toBindings = .ok bindings) :
    p.infer s context = p.probe (p.hosted s context.owner).2 context.bindings bindings
      (p.hosted s context.owner).1 := by
  rw [infer, if_neg occupied, if_neg owned, read]
  rfl

theorem infer_recording_probes (occupied : ¬ context.bindings.isEmpty)
    (owned : ¬ allBlank context.owner) (read : context.toBindings = .ok bindings) :
    p.recording.infer (s.withOracle (s.oracle, [])) context =
      ((p.infer s context).1, (p.infer s context).2.withOracle ((p.infer s context).2.oracle,
        p.probeAsks (p.hosted s context.owner).2 bindings (p.hosted s context.owner).1)) := by
  have kept := (p.hosted_keeps s context.owner).2
  rw [infer_probes p s occupied owned read, infer_probes p.recording _ occupied owned read,
    recording, hosted_withOracle, ← kept]
  exact probe_recording p (p.hosted s context.owner).2 context.bindings bindings
    (p.hosted s context.owner).1

end

inductive Inferred (p : Prober σ) (s : ProbingState σ) (context : InferenceContext) : Prop
  | unprobed (result : Except InferenceStop Report) (infers : p.infer s context = (result, s))
    (records : p.recording.infer (s.withOracle (s.oracle, [])) context =
      (result, s.withOracle (s.oracle, [])))
  | probed (bindings : List Binding) (read : context.toBindings = .ok bindings)
    (infers : p.infer s context = p.probe (p.hosted s context.owner).2 context.bindings bindings
      (p.hosted s context.owner).1)
    (records : p.recording.infer (s.withOracle (s.oracle, [])) context =
      ((p.infer s context).1, (p.infer s context).2.withOracle ((p.infer s context).2.oracle,
        p.probeAsks (p.hosted s context.owner).2 bindings (p.hosted s context.owner).1)))

theorem inferred (p : Prober σ) (s : ProbingState σ) (context : InferenceContext) :
    Inferred p s context := by
  by_cases empty : context.bindings.isEmpty
  · exact .unprobed (.ok ⟨[], []⟩) (by rw [infer, if_pos empty]) (by rw [infer, if_pos empty])
  by_cases blank : allBlank context.owner
  · exact .unprobed _ (by rw [infer, if_neg empty, if_pos blank])
      (by rw [infer, if_neg empty, if_pos blank])
  cases read : context.toBindings with
  | error e =>
    exact .unprobed (.error (.kind e)) (by rw [infer, if_neg empty, if_neg blank, read])
      (by rw [infer, if_neg empty, if_neg blank, read])
  | ok bindings =>
    exact .probed bindings read (infer_probes p s empty blank read)
      (infer_recording_probes empty blank read)

theorem infer_recording (p : Prober σ) (s : ProbingState σ) (context : InferenceContext) :
    p.recording.infer (s.withOracle (s.oracle, [])) context =
      ((p.infer s context).1, (p.infer s context).2.withOracle
        ((p.infer s context).2.oracle, p.transcript s context)) := by
  unfold transcript
  cases p.inferred s context with
  | unprobed result infers records =>
    rw [records, infers]
    rfl
  | probed bindings read infers records =>
    rw [records]
    rfl

end Prober

end TemplateTypes
