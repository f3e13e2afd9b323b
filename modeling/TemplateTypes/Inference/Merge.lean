import TemplateTypes.Inference.Probing

namespace TemplateTypes

open Text

namespace Merge

def isWeak (entry : InferredType) : Bool := !entry.inferred || entry.confidence == .low

/-- The candidate, when it says something that is better than the current entry. -/
def better (current candidate : InferredType) : InferredType :=
  if candidate.inferred &&
      (!current.inferred || current.confidence.rank < candidate.confidence.rank) then candidate
  else current

def entryFor (candidates : List InferredType) (current : InferredType) : InferredType :=
  if isWeak current then
    match candidates.find? (·.name == current.name) with
    | some candidate => better current candidate
    | none => current
  else current

def weakBindings (bindings : BindingMap) (results : List InferredType) : BindingMap :=
  (results.filter isWeak).filterMap fun entry =>
    (bindings.lookup entry.name).map fun expression => (entry.name, expression)

def fill {σ : Type} (s : ProbingState σ) (context : InferenceContext) (report : Report) :
    Report × ProbingState σ :=
  let weak := weakBindings context.bindings report.results
  if weak.isEmpty then (report, s)
  else
    let (candidates, cache) := Local.infer s.probes.files s.now context.owner weak s.cache
    ({ report with results := report.results.map (entryFor candidates) }, { s with cache })

end Merge

/-- The report on a context; without a prober the source file alone is asked. -/
def inferTypes {σ : Type} (prober : Option (Prober σ)) (s : ProbingState σ)
    (context : InferenceContext) : Except InferenceStop Report × ProbingState σ :=
  if context.bindings.isEmpty then (.ok ⟨[], []⟩, s)
  else
    match prober with
    | none =>
      let (results, cache) :=
        Local.infer s.probes.files s.now context.owner context.bindings s.cache
      (.ok ⟨results, []⟩, { s with cache })
    | some p =>
      match p.infer s context with
      | (.error stop, s) => (.error stop, s)
      | (.ok report, s) =>
        let (report, s) := Merge.fill s context report
        (.ok report, s)

end TemplateTypes
