import TemplateTypes.Inference.Report
import TemplateTypes.Resolver.Walk
import TemplateTypes.TypeText.Extracted
import TemplateTypes.Workspace.Cache

namespace TemplateTypes

open Text

inductive LocalError
  | capacity (cause : CapacityError)
  | call (cause : TypeText.CallError)
  deriving DecidableEq, Repr

def LocalError.message : LocalError → Text
  | .capacity cause => cause.message
  | .call cause => cause.message

namespace Local

def describeIn (file : ParsedFile) (expression : Text) : Except LocalError (Option Text) :=
  match file.componentClass? with
  | none => .ok none
  | some owner =>
    match describeExpression file.shapes owner expression with
    | .error e => .error (.call e)
    | .ok signature => .ok signature

/-- The signature of an expression in the template of the component that `owner` declares. -/
def describe (cache : WorkspaceCache) (files : FileTree) (now : Int) (owner expression : Text) :
    Except LocalError (Option Text) × WorkspaceCache :=
  if owner.isEmpty then (.ok none, cache)
  else
    match cache.attach files now owner with
    | (.error e, cache) => (.error (.capacity e), cache)
    | (.ok none, cache) => (.ok none, cache)
    | (.ok (some handle), cache) => (describeIn handle.file expression, cache)

def fenced (signature : Text) : Text :=
  "\x60\x60\x60typescript\n".toList ++ signature ++ "\n\x60\x60\x60".toList

/-- The entry that a signature gives; a type that says nothing counts as none. -/
def entry (name : Text) (signature : Option Text) : InferredType :=
  match signature.bind (extractType? ∘ fenced) with
  | none => .unknown name
  | some found =>
    if found.type == TypeText.any || found.type == TypeText.unknown then .unknown name
    else ⟨name, found.type, true, found.confidence, .localSource⟩

def infer (files : FileTree) (now : Int) (owner : Text) :
    BindingMap → WorkspaceCache → List InferredType × WorkspaceCache
  | [], cache => ([], cache)
  | (name, expression) :: more, cache =>
    let (signature, cache) := describe cache files now owner expression
    let (entries, cache) := infer files now owner more cache
    (entry name (signature.toOption.bind id) :: entries, cache)

end Local

end TemplateTypes
