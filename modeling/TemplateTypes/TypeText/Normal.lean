import TemplateTypes.TypeText.Brackets
import TemplateTypes.TypeText.Qualifier

namespace TemplateTypes.TypeText

open Text

def unknown : Text := "unknown".toList

def any : Text := "any".toList

def tidy (t : Text) : Text := trim (dropEndWhile (· == ';') (trim (collapse t)))

def dropTrailingUndefined : List Text → List Text
  | [] => []
  | first :: rest =>
    first :: (rest.reverse.dropWhile (· == "undefined".toList)).reverse

def unionText (members : List Text) : Text := join " | ".toList members

def canonical (t : Text) : Text :=
  let text := match dropTrailingUndefined (splitTop '|' t) with
    | [] => t
    | members => unionText members
  if text.isEmpty then unknown else text

def normalize (t : Text) : Text :=
  if allBlank t then unknown else canonical (tidy (withoutQualifiers t))

end TemplateTypes.TypeText
