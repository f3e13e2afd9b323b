import TemplateTypes.Hover.Query
import TemplateTypes.Probe.Registry
import TemplateTypes.Resolver.Local

namespace TemplateTypes

open Text

/-- What an inference works with besides its oracle. `findsHost` lets the probe extend the
    component of the owner's file. -/
structure Prober (σ : Type) where
  folder : ProbeFolder
  client : QueryClient
  oracle : Oracle σ
  timeoutMs : Int
  findsHost : Bool

structure ProbingState (σ : Type) where
  probes : ProbeState
  cache : WorkspaceCache
  now : Int
  oracle : σ

inductive InferenceStop
  | kind (cause : KindError)
  | interrupted
  deriving DecidableEq, Repr

namespace Prober

def hostOf {σ : Type} (s : ProbingState σ) (owner : Text) :
    Option ComponentHost × ProbingState σ :=
  match s.cache.attach s.probes.files s.now owner with
  | (.ok (some handle), cache) =>
    (handle.file.componentClass?.map fun name => ⟨name, handle.path⟩, { s with cache })
  | (_, cache) => (none, { s with cache })

def entryOf (name hover : Text) : Except Fault InferredType :=
  match extractType? hover with
  | none => .error (.extraction "No type found in hover text".toList)
  | some found =>
    if found.type == TypeText.unknown then
      .error (.extraction "No type found in hover text".toList)
    else
      let confidence := if found.type == TypeText.any then .low else found.confidence
      .ok ⟨name, found.type, true, confidence, .languageService⟩

def judge (name : Text) : Except Stop HoverResult → Except Stop InferredType
  | .error stop => .error stop
  | .ok (.missed message code _) => .error (.failed ⟨[], message, some code⟩)
  | .ok (.found hover _) =>
    match entryOf name hover with
    | .error fault => .error (.failed fault)
    | .ok entry => .ok entry

/-- Asks about one binding, whose expression is looked for from an offset of the template on. -/
def askBinding {σ : Type} (p : Prober σ) (files : FileTree) (artifact : Artifact) (b : Binding)
    (start : Nat) (s : σ) : Except Stop InferredType × σ :=
  let position := artifact.positionOf b.expression start
  if position.isUnknown then
    (.error (.failed (.queryFailure "Expression not found in probe component".toList)), s)
  else
    let queried := p.client.queryAt p.oracle s files artifact.uri position (some p.timeoutMs)
    (judge b.name queried.result, queried.oracle)

def issueOf (name : Text) (fault : Fault) : Issue :=
  ⟨fault.code.getD .resolution, fault.message, some name⟩

/-- Asks about the bindings one after the other. A failure concerns its own binding only. -/
def askAll {σ : Type} (p : Prober σ) (files : FileTree) (artifact : Artifact) :
    List (Binding × Nat) → σ → Except InferenceStop Report × σ
  | [], s => (.ok ⟨[], []⟩, s)
  | (b, start) :: more, s =>
    match askBinding p files artifact b start s with
    | (.error .interrupted, s) => (.error .interrupted, s)
    | (.error (.failed fault), s) =>
      match askAll p files artifact more s with
      | (.ok report, s) =>
        (.ok ⟨.unknown b.name :: report.results, issueOf b.name fault :: report.issues⟩, s)
      | stopped => stopped
    | (.ok entry, s) =>
      match askAll p files artifact more s with
      | (.ok report, s) => (.ok { report with results := entry :: report.results }, s)
      | stopped => stopped

/-- Bindings with the offsets of the escaped template from which their expressions are looked
    for. -/
def searches (bindings : List Binding) : List (Binding × Nat) :=
  let template := Probe.template bindings
  bindings.zip ((Probe.valueStarts bindings).map fun (start : Nat) => escapedOffset template start)

def probe {σ : Type} (p : Prober σ) (s : ProbingState σ) (map : BindingMap)
    (bindings : List Binding) (host : Option ComponentHost) :
    Except InferenceStop Report × ProbingState σ :=
  match Probe.materialize p.folder s.probes (Probe.template bindings) host with
  | (.error e, probes) => (.ok (.unanswered map .artifact e.message), { s with probes })
  | (.ok artifact, probes) =>
    let (report, oracle) := askAll p probes.files artifact (searches bindings) s.oracle
    (report, { s with probes := Probe.dispose probes artifact.path, oracle })

def infer {σ : Type} (p : Prober σ) (s : ProbingState σ) (context : InferenceContext) :
    Except InferenceStop Report × ProbingState σ :=
  if context.bindings.isEmpty then (.ok ⟨[], []⟩, s)
  else if allBlank context.owner then
    (.ok (.unanswered context.bindings .invalidInput "Owner file path is empty".toList), s)
  else
    match context.toBindings with
    | .error e => (.error (.kind e), s)
    | .ok bindings =>
      let (host, s) := if p.findsHost then hostOf s context.owner else (none, s)
      p.probe s context.bindings bindings host

end Prober

end TemplateTypes
