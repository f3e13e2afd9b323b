import TemplateTypes.Files.Tree
import TemplateTypes.Files.Uri
import TemplateTypes.Hover.Fault

namespace TemplateTypes

open Text

def Fault.ofFile (e : FileError) : Fault :=
  let name := match e with
    | .refused .noEntry _ => "FileNotFoundError"
    | .refused .exists _ => "FileExistsError"
    | .refused .notDirectory _ => "NotADirectoryError"
    | .refused .isDirectory _ => "IsADirectoryError"
    | .refused .nameTooLong _ | .refused .linkLoop _ | .noSpace => "OSError"
    | .nulCharacter => "ValueError"
  ⟨name.toList, e.message, none⟩

def Fault.ofUri (e : UriError) : Fault :=
  match e with
  | .unsupported _ => .queryFailure e.message
  | .host _ => ⟨"ValueError".toList, e.message, none⟩

namespace Document

def read (files : FileTree) (uri : Text) : Except Fault Text := do
  let path ← (Uri.toPath uri).mapError Fault.ofUri
  let (content, _) ← (files.read path.toText).mapError Fault.ofFile
  match Utf8.decode content with
  | .ok t => return unifyLines t
  | .error fault => throw ⟨"UnicodeDecodeError".toList, fault.message, none⟩

end Document

end TemplateTypes
