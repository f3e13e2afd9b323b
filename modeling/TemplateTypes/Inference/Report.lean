import TemplateTypes.Hover.Fault
import TemplateTypes.Probe.Layout
import TemplateTypes.Text.Quoted
import TemplateTypes.TypeText.Confidence
import TemplateTypes.TypeText.Normal

namespace TemplateTypes

open Text

inductive TypeOrigin
  | languageService
  | localSource
  | fallback
  deriving DecidableEq, Repr

def TypeOrigin.text : TypeOrigin → Text
  | .languageService => "language_service".toList
  | .localSource => "local".toList
  | .fallback => "fallback".toList

structure InferredType where
  name : Text
  type : Text
  inferred : Bool
  confidence : Confidence
  origin : TypeOrigin
  deriving DecidableEq, Repr

def InferredType.unknown (name : Text) : InferredType :=
  ⟨name, TypeText.unknown, false, .low, .fallback⟩

/-- An issue of one binding or, without a name, of the whole inference. -/
structure Issue where
  code : IssueCode
  message : Text
  name : Option Text
  deriving DecidableEq, Repr

/-- Results are in the order of the bindings, one for each name. -/
structure Report where
  results : List InferredType
  issues : List Issue
  deriving DecidableEq, Repr

abbrev BindingMap := List (Text × Text)

def unknownResults (bindings : BindingMap) : List InferredType :=
  bindings.map fun (name, _) => .unknown name

def Report.unanswered (bindings : BindingMap) (code : IssueCode) (message : Text) : Report :=
  ⟨unknownResults bindings, [⟨code, message, none⟩]⟩

structure KindError where
  kind : Text
  deriving DecidableEq, Repr

def KindError.message (e : KindError) : Text :=
  quoted e.kind ++ " is not a valid BindingKind".toList

namespace BindingKind

def text : BindingKind → Text
  | .input => "input".toList
  | .output => "output".toList
  | .model => "model".toList

def read (t : Text) : Except KindError BindingKind :=
  if t == text .input then .ok .input
  else if t == text .output then .ok .output
  else if t == text .model then .ok .model
  else .error ⟨t⟩

end BindingKind

/-- The bindings cut out of the template of the component in the file `owner`, and the kinds
    declared for them. -/
structure InferenceContext where
  owner : Text
  bindings : BindingMap
  kinds : List (Text × Text)
  deriving DecidableEq, Repr

namespace InferenceContext

def modelName : Text := "ngModel".toList

/-- The kind that an expression looks like: one with parentheses reacts to an event. -/
def guessedKind (name expression : Text) : BindingKind :=
  if name == modelName then .model
  else if expression.elem '(' && expression.elem ')' then .output
  else .input

def kindOf (context : InferenceContext) (name : Text) : Except KindError BindingKind :=
  match context.kinds.lookup name with
  | some kind => BindingKind.read kind
  | none => .ok (guessedKind name ((context.bindings.lookup name).getD []))

def toBindings (context : InferenceContext) : Except KindError (List Binding) :=
  context.bindings.mapM fun (name, expression) => do
    return ⟨name, expression, ← context.kindOf name⟩

end InferenceContext

end TemplateTypes
