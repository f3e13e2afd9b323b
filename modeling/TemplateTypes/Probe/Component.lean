import TemplateTypes.Files.Path
import TemplateTypes.Probe.Anchor
import TemplateTypes.Probe.Position

namespace TemplateTypes

open Text

structure ComponentHost where
  className : Text
  file : Text
  deriving DecidableEq, Repr

namespace Probe

def marker : Text := "template: `".toList

def namePart : Text := "type-probe-".toList

/-- Leaves the first `skip` characters out and then every occurrence of `part`. -/
def withoutFrom (part : Text) : (skip : Nat) → Text → Text
  | _, [] => []
  | skip + 1, _ :: rest => withoutFrom part skip rest
  | 0, c :: rest =>
    if startsWith (c :: rest) part then withoutFrom part (part.length - 1) rest
    else c :: withoutFrom part 0 rest

/-- What sets a probe file's name apart from others: the name up to its first dot. -/
def suffix (fileName : Text) : Text := withoutFrom namePart 0 (fileName.takeWhile (· != '.'))

/-- The module specifier under which a file can be imported from another one. -/
def importPath (here : Path) (artifact : Path) (target : Text) : Except Path.NameError Text :=
  let file := Path.ofText target
  match file.withName (dropEnding (dropEnding file.name ".ts".toList) ".tsx".toList) with
  | .error e => .error e
  | .ok module =>
    let specifier := Path.relative (here.absolute module) (here.absolute artifact.parent)
    .ok (if startsWith specifier ['.'] then specifier else "./".toList ++ specifier)

def hostImport (className specifier : Text) : Text :=
  "import \x7b ".toList ++ className ++ " \x7d from '".toList ++ specifier ++ "';".toList

def header (suffix : Text) (host : Option (Text × Text)) : Text :=
  let imports := "import \x7b Component \x7d from '@angular/core';".toList ::
    (host.map fun (className, specifier) => hostImport className specifier).toList
  join ['\n'] imports ++ "\n\n@Component(\x7b\n  selector: 'app-type-probe-".toList ++ suffix ++
    "',\n  standalone: true,\n  ".toList ++ marker

def footer (host : Option (Text × Text)) : Text :=
  let heritage := match host with
    | some (className, _) => " extends ".toList ++ className
    | none => []
  "`,\n\x7d)\nexport class TypeProbeComponent".toList ++ heritage ++ " \x7b\x7d\n".toList

/-- The component's source, for a host given by its class name and module specifier. -/
def source (suffix : Text) (host : Option (Text × Text)) (template : Text) : Text :=
  header suffix host ++ escapeTemplate template ++ footer host

def render (here : Path) (artifact : Path) (template : Text) (host : Option ComponentHost) :
    Except Path.NameError Text :=
  match host with
  | none => .ok (source (suffix artifact.name) none template)
  | some host =>
    match importPath here artifact host.file with
    | .error e => .error e
    | .ok specifier =>
      .ok (source (suffix artifact.name) (some (host.className, specifier)) template)

def templateOffset? (content : Text) : Option Nat :=
  (find? marker content).map (· + marker.length)

end Probe

structure Artifact where
  path : Text
  uri : Text
  -- Clock time of creation in milliseconds.
  createdAt : Nat
  content : Text
  templateOffset : Nat
  template : Text
  host : Option ComponentHost
  deriving DecidableEq, Repr

/-- Where to ask for the type of an expression: at the anchor of its first escaped occurrence at
    or after `offset` in the embedded template. -/
def Artifact.positionOf (artifact : Artifact) (expression : Text) (offset : Int) : Position :=
  let escaped := escapeTemplate expression
  if escaped.isEmpty then .origin
  else match Text.findFrom? escaped artifact.content (artifact.templateOffset + offset.toNat) with
    | none => .origin
    | some i => .ofOffset artifact.content (i + hoverAnchor escaped : Nat)

end TemplateTypes
