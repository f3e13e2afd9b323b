import TemplateTypes.Files.Tree

namespace TemplateTypes

open Text

namespace Path

/-- The path from a list of its steps, last one first, and all paths above it. -/
def ancestorsFrom (root : Text) : (stepsReversed : List Text) → List Path
  | [] => [⟨root, []⟩]
  | step :: above => ⟨root, (step :: above).reverse⟩ :: ancestorsFrom root above

def ancestors (p : Path) : List Path := ancestorsFrom p.root p.steps.reverse

end Path

namespace Workspace

def defaultMarkers : List Text := ["package.json".toList, "angular.json".toList]

def defaultConfigs : List Text :=
  ["tsconfig.json".toList, "tsconfig.app.json".toList, "src/tsconfig.json".toList]

def holdsMarker (files : FileTree) (markers : List Text) (directory : Path) : Bool :=
  markers.any fun marker => files.isFile (Path.joinText directory.toText marker)

/-- The flattened path of a text seen from where the files' relative paths start. -/
def absolute (files : FileTree) (path : Text) : Path :=
  Path.absolute ⟨['/'], files.here⟩ (Path.ofText path)

/-- The nearest marked directory at or above the one of the file, else that directory itself. -/
def rootOf (files : FileTree) (markers : List Text) (path : Text) : Path :=
  let start := (absolute files path).parent
  (start.ancestors.find? (holdsMarker files markers)).getD start

def configOf (files : FileTree) (configs : List Text) (root : Text) : Option Text :=
  (configs.map (Path.joinText root)).find? files.isFile

end Workspace

end TemplateTypes
