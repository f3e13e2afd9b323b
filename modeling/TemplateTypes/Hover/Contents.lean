import TemplateTypes.Json.Display

namespace TemplateTypes.Hover

open Text

def fenced (language value : Json) : Json :=
  .str ("```".toList ++ language.display ++ ['\n'] ++ value.display ++ "\n```".toList)

mutual

/-- A text stands for itself unless it is blank, a list for its items one after the other, and an
    object for its value. -/
def candidates : Json → List Json
  | .str t => if allBlank t then [] else [.str t]
  | .arr items => candidatesOfAll items
  | .obj members =>
    match members.lookup "value".toList with
    | none => []
    | some value =>
      if !value.holds then []
      else match members.lookup "language".toList with
        | some language => [fenced language value]
        | none => [value]
  | _ => []

def candidatesOfAll : List Json → List Json
  | [] => []
  | item :: more => candidates item ++ candidatesOfAll more

end

end TemplateTypes.Hover
