import TemplateTypes.Files.Confine
import TemplateTypes.Inference.Merge
import TemplateTypes.Json.Reader
import TemplateTypes.Settings.Basic

namespace TemplateTypes

open Text

inductive MappingError
  | malformed (label : Text) (cause : Json.ReadError)
  | notObject (label : Text)
  | notTexts (label : Text)
  deriving DecidableEq, Repr

namespace MappingError

/-- Too many digits and too deep nesting are reported without the argument's name. -/
def message : MappingError → Text
  | .malformed _ (.tooManyDigits n) => (Json.ReadError.tooManyDigits n).message
  | .malformed _ (.tooDeep container) => (Json.ReadError.tooDeep container).message
  | .malformed label cause => label ++ " is not valid JSON: ".toList ++ cause.message
  | .notObject label => label ++ " must be an object mapping names to strings".toList
  | .notTexts label => label ++ " must map strings to strings".toList

def isTooDeep : MappingError → Bool
  | .malformed _ (.tooDeep _) => true
  | _ => false

end MappingError

inductive KindsError
  | mapping (cause : MappingError)
  | kind (cause : KindError)
  deriving DecidableEq, Repr

namespace KindsError

def message : KindsError → Text
  | .mapping cause => cause.message
  | .kind cause => cause.message

def isTooDeep : KindsError → Bool
  | .mapping cause => cause.isTooDeep
  | .kind _ => false

end KindsError

/-- A request. Maps may be given as JSON values or as the text of one, for whose reading there is
    room for `nesting` containers inside the outermost one. -/
structure InferenceRequest where
  owner : Text
  bindings : Json
  kinds : Json
  useService : Option Bool
  timeoutMs : Option Int
  nesting : Nat

structure Problem where
  code : IssueCode
  message : Text
  file : Text
  deriving DecidableEq, Repr

structure InferenceResponse where
  types : List InferredType
  problems : List Problem
  success : Bool
  workspaceRoot : Option Text
  deriving DecidableEq, Repr

inductive RequestStop
  -- The owner's path holds a NUL character.
  | unusablePath
  -- An argument's text nests deeper than there is room for.
  | tooDeep (message : Text)
  | interrupted
  deriving DecidableEq, Repr

namespace InferenceRequest

def textMember : Text × Json → Option (Text × Text)
  | (name, .str t) => some (name, t)
  | _ => none

def mapping (nesting : Nat) (label : Text) (argument : Json) :
    Except MappingError BindingMap := do
  let value ← match argument with
    | .str t =>
      match Json.read nesting t with
      | .ok value => pure value
      | .error e => throw (.malformed label e)
    | .null => pure (.obj [])
    | other => pure other
  match value with
  | .obj members =>
    match members.mapM textMember with
    | some map => return map
    | none => throw (.notTexts label)
  | _ => throw (.notObject label)

def refused (bindings : BindingMap) (message file : Text) : InferenceResponse :=
  ⟨unknownResults bindings, [⟨.invalidInput, message, file⟩], false, none⟩

def kindMap (nesting : Nat) (argument : Json) : Except KindsError BindingMap := do
  let map ← (mapping nesting "binding_kinds".toList argument).mapError KindsError.mapping
  let _ ← ((map.map (·.2)).mapM BindingKind.read).mapError KindsError.kind
  return map

def problemOf (file : Text) (issue : Issue) : Problem :=
  let message := match issue.name with
    | some (c :: name) => c :: name ++ ": ".toList ++ issue.message
    | _ => issue.message
  ⟨issue.code, message, file⟩

def timeout (settings : Settings) (requested : Option Int) : Int :=
  match requested with
  | none => settings.hoverTimeoutMs
  | some n => if n = 0 then settings.hoverTimeoutMs else n

/-- The prober for an owner file, when there is an oracle and it is to be used. -/
def prober? {σ : Type} (r : InferenceRequest) (settings : Settings) (oracle : Option (Oracle σ))
    (s : ProbingState σ) (environmentRoot path : Text) : Option (Prober σ) :=
  if r.useService.getD settings.useLanguageService then
    oracle.map fun oracle =>
      { folder := ⟨settings.scratchDir, some (s.cache.rootOf s.probes.files path).toText,
          environmentRoot⟩
        client := ⟨settings.hoverTimeoutMs, QueryClient.typeScriptTags⟩
        oracle
        timeoutMs := timeout settings r.timeoutMs
        findsHost := true }
  else none

def inferIn {σ : Type} (r : InferenceRequest) (settings : Settings) (oracle : Option (Oracle σ))
    (s : ProbingState σ) (environmentRoot path : Text) (bindings kinds : BindingMap) :
    Except RequestStop InferenceResponse × ProbingState σ :=
  let prober := r.prober? settings oracle s environmentRoot path
  match inferTypes prober s ⟨path, bindings, kinds⟩ with
  | (.error .interrupted, s) => (.error .interrupted, s)
  | (.error (.kind e), s) =>
    let message := "Inference failed: ".toList ++ e.message
    (.ok ⟨unknownResults bindings, [⟨.resolution, message, path⟩], false, none⟩, s)
  | (.ok report, s) =>
    (.ok ⟨report.results, report.issues.map (problemOf path), true,
      some (s.cache.rootOf s.probes.files path).toText⟩, s)

/-- The response to a request. The owner's path has to lie in the project root. -/
def respond {σ : Type} (r : InferenceRequest) (settings : Settings) (oracle : Option (Oracle σ))
    (projectRoot : Text) (s : ProbingState σ) :
    Except RequestStop InferenceResponse × ProbingState σ :=
  match mapping r.nesting "bindings".toList r.bindings with
  | .error e =>
    if e.isTooDeep then (.error (.tooDeep e.message), s)
    else (.ok (refused [] e.message r.owner), s)
  | .ok bindings =>
    match kindMap r.nesting r.kinds with
    | .error e =>
      if e.isTooDeep then (.error (.tooDeep e.message), s)
      else (.ok (refused bindings e.message r.owner), s)
    | .ok kinds =>
      match s.probes.files.confine r.owner projectRoot with
      | .error .unusable => (.error .unusablePath, s)
      | .error e => (.ok (refused bindings e.message r.owner), s)
      | .ok place =>
        r.inferIn settings oracle s projectRoot (FileTree.placeText place) bindings kinds

end InferenceRequest

end TemplateTypes
