import TemplateTypes.Files.Tree
import TemplateTypes.Files.Uri
import TemplateTypes.Probe.Component

namespace TemplateTypes

open Text

/-- Where probe files go: a scratch directory below the project root, or below the root of the
    environment when the project has none. -/
structure ProbeFolder where
  scratchDir : Text
  projectRoot : Option Text
  environmentRoot : Text
  deriving DecidableEq, Repr

/-- The files, the clock in milliseconds, the number of the next probe, and the probes written
    and not yet removed. -/
structure ProbeState where
  files : FileTree
  clock : Nat
  serial : Nat
  artifacts : List Artifact
  deriving Repr

inductive MaterializeError
  | unresolvedRoot (cause : FileTree.ResolveError)
  | host (cause : Path.NameError)
  | notCreated (scratch : Text) (cause : FileError)
  -- The scratch directory's path holds a NUL character.
  | unusable
  deriving DecidableEq, Repr

def MaterializeError.message : MaterializeError → Text
  | .unresolvedRoot cause => cause.message
  | .host cause => cause.message
  | .notCreated scratch cause =>
    "Cannot create temporary component in ".toList ++ scratch ++ ": ".toList ++ cause.message
  | .unusable => FileError.nulCharacter.message

def MaterializeError.ofFile (scratch : Text) : FileError → MaterializeError
  | .nulCharacter => .unusable
  | cause => .notCreated scratch cause

namespace Probe

def fileName (clock serial : Nat) : Text :=
  namePart ++ ofNat clock ++ ['-'] ++ hex 8 serial ++ ".component.ts".toList

def scratchPath (folder : ProbeFolder) (files : FileTree) : Except FileTree.ResolveError Path :=
  let root :=
    match folder.projectRoot.getD [] with
    | [] => if folder.environmentRoot.isEmpty then FileTree.placeText files.here
      else folder.environmentRoot
    | root => root
  match files.resolve root with
  | .error e => .error e
  | .ok place => .ok (Path.ofText (FileTree.placeText place) / Path.ofText folder.scratchDir)

/-- The scratch directory made and the file in it written. What is there when that fails stays. -/
def writeProbe (files : FileTree) (clock : Nat) (scratch : Path) (path content : Text) :
    Except FileError Unit × FileTree :=
  match files.growDirectories scratch.root scratch.steps.reverse with
  | (.error e, grown) => (.error e, grown)
  | (.ok _, grown) => grown.put path (Utf8.encode content) clock

def register (artifact : Artifact) : List Artifact → List Artifact
  | [] => [artifact]
  | a :: more => if a.path == artifact.path then artifact :: more else a :: register artifact more

def materialize (folder : ProbeFolder) (s : ProbeState) (template : Text)
    (host : Option ComponentHost) : Except MaterializeError Artifact × ProbeState :=
  match scratchPath folder s.files with
  | .error e => (.error (.unresolvedRoot e), s)
  | .ok scratch =>
    let path := scratch.child (fileName s.clock s.serial)
    let s := { s with serial := s.serial + 1 }
    match render ⟨['/'], s.files.here⟩ path template host with
    | .error e => (.error (.host e), s)
    | .ok content =>
      match writeProbe s.files s.clock scratch path.toText content with
      | (.error e, files) => (.error (.ofFile scratch.toText e), { s with files })
      | (.ok _, files) =>
        let artifact : Artifact :=
          ⟨path.toText, Uri.ofPath path, s.clock, content, (templateOffset? content).getD 0,
            template, host⟩
        (.ok artifact, { s with files, artifacts := register artifact s.artifacts })

/-- Forgets a path and removes its file. That the file cannot be removed is no failure. -/
def dispose (s : ProbeState) (path : Text) : ProbeState :=
  let artifacts := s.artifacts.filter (·.path != path)
  if path.isEmpty then { s with artifacts }
  else match s.files.remove (Path.ofText path).toText with
    | .ok files => { s with files, artifacts }
    | .error _ => { s with artifacts }

def disposeAll (s : ProbeState) : ProbeState :=
  s.artifacts.foldl (fun s artifact => dispose s artifact.path) s

end Probe

end TemplateTypes
