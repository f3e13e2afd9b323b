import TemplateTypes.Text.Basic

namespace TemplateTypes

inductive IssueCode
  | invalidInput
  | artifact
  | queryTimeout
  | queryFailure
  | extraction
  | resolution
  | other (code : Text)
  deriving DecidableEq, Repr

def IssueCode.text : IssueCode → Text
  | .invalidInput => "INVALID_INPUT".toList
  | .artifact => "ARTIFACT_ERROR".toList
  | .queryTimeout => "QUERY_TIMEOUT".toList
  | .queryFailure => "QUERY_FAILURE".toList
  | .extraction => "EXTRACTION_FAILURE".toList
  | .resolution => "RESOLUTION_FAILURE".toList
  | .other code => code

def IssueCode.ofText (t : Text) : IssueCode :=
  match [IssueCode.invalidInput, .artifact, .queryTimeout, .queryFailure, .extraction,
      .resolution].find? fun code => code.text == t with
  | some code => code
  | none => .other t

/-- The code under which failures of a name are reported, unless they carry another one. -/
def IssueCode.ofFaultName? (name : Text) : Option IssueCode :=
  [("InferenceError".toList, IssueCode.resolution), ("ArtifactError".toList, .artifact),
    ("QueryTimeout".toList, .queryTimeout), ("QueryFailure".toList, .queryFailure),
    ("ExtractionFailure".toList, .extraction)].lookup name

/-- A failure by the name of its kind, with a message and, for the failures of type inference
    itself, a code. -/
structure Fault where
  name : Text
  message : Text
  code : Option IssueCode
  deriving DecidableEq, Repr

namespace Fault

def named (name message : Text) (code : Option Text) : Fault :=
  ⟨name, message, (code.map IssueCode.ofText) <|> IssueCode.ofFaultName? name⟩

def summary (f : Fault) : Text := if f.message.isEmpty then f.name else f.message

def queryFailure (message : Text) : Fault :=
  ⟨"QueryFailure".toList, message, some .queryFailure⟩

def queryTimeout (message : Text) : Fault :=
  ⟨"QueryTimeout".toList, message, some .queryTimeout⟩

def extraction (message : Text) : Fault :=
  ⟨"ExtractionFailure".toList, message, some .extraction⟩

def wrongKind (message : Text) : Fault := ⟨"TypeError".toList, message, none⟩

end Fault

end TemplateTypes
