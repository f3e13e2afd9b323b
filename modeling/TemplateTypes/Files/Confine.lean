import TemplateTypes.Files.Tree

namespace TemplateTypes

open Text

inductive ConfineError
  | emptyPath
  | outside (path : Text)
  | unresolved (cause : FileTree.ResolveError)
  -- The path holds a NUL character and cannot be looked at.
  | unusable
  deriving DecidableEq, Repr

def ConfineError.message : ConfineError → Text
  | .emptyPath => "File path is empty".toList
  | .outside path => "File path outside project root: ".toList ++ path
  | .unresolved cause => "Invalid file path: ".toList ++ cause.message
  | .unusable => FileError.nulCharacter.message

def ConfineError.ofResolve : FileTree.ResolveError → ConfineError
  | .nulCharacter => .unusable
  | cause => .unresolved cause

/-- The real place of a path, seen from the root when it is relative, provided that it lies at or
    below the real place of the root. -/
def FileTree.confine (tree : FileTree) (path root : Text) : Except ConfineError Place :=
  if allBlank path then .error .emptyPath
  else
    match tree.resolve root with
    | .error cause => .error (.ofResolve cause)
    | .ok base =>
      let full := Path.ofText (placeText base) / Path.ofText path
      match tree.resolve full.toText with
      | .error cause => .error (.ofResolve cause)
      | .ok place => if base.isPrefixOf place then .ok place else .error (.outside path)

end TemplateTypes
