import TemplateTypes.Markdown.Fence
import TemplateTypes.TypeText.Confidence
import TemplateTypes.TypeText.Signature

namespace TemplateTypes

open TypeText

structure ExtractedType where
  type : Text
  nullable : Bool
  optional : Bool
  confidence : Confidence
  deriving DecidableEq, Repr

def extractType? (hover : Text) : Option ExtractedType :=
  match Markdown.codeBlock? hover with
  | none => none
  | some block =>
    let declared := Signature.declared block
    if declared.type.isEmpty then none
    else
      let raw := withoutQualifiers declared.type
      let type := normalize raw
      some ⟨type, (splitTop '|' raw).contains "null".toList, declared.optional, classify type⟩

end TemplateTypes
