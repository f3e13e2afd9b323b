import TemplateTypes.Files.Path

namespace TemplateTypes

open Text

abbrev Place := List Text

inductive Node
  | directory
  | file (content : Bytes) (modified : Int)
  | link (target : Text)
  deriving DecidableEq, Repr

def Node.size : Node → Nat
  | .file content _ => content.length
  | _ => 0

inductive Errno
  | noEntry
  | exists
  | notDirectory
  | isDirectory
  | nameTooLong
  | linkLoop
  deriving DecidableEq, Repr

def Errno.number : Errno → Nat
  | .noEntry => 2
  | .exists => 17
  | .notDirectory => 20
  | .isDirectory => 21
  | .nameTooLong => 36
  | .linkLoop => 40

def Errno.text : Errno → Text
  | .noEntry => "No such file or directory".toList
  | .exists => "File exists".toList
  | .notDirectory => "Not a directory".toList
  | .isDirectory => "Is a directory".toList
  | .nameTooLong => "File name too long".toList
  | .linkLoop => "Too many levels of symbolic links".toList

/-- Why a file operation failed. A path with a NUL character names nothing at all; a write can run
    out of space when the file is there already. -/
inductive FileError
  | refused (errno : Errno) (path : Text)
  | nulCharacter
  | noSpace
  deriving DecidableEq, Repr

def FileError.message : FileError → Text
  | .refused errno path =>
    "[Errno ".toList ++ ofNat errno.number ++ "] ".toList ++ errno.text ++ ": ".toList ++
      quoted path
  | .nulCharacter => "embedded null byte".toList
  | .noSpace => "[Errno 28] No space left on device".toList

structure FileTree where
  -- The directory that relative paths start from.
  here : Place
  nodes : List (Place × Node)
  -- How many bytes the files can hold together, where that is bounded.
  capacity : Option Nat
  deriving Repr

namespace FileTree

def node? (tree : FileTree) (place : Place) : Option Node :=
  if place.isEmpty then some .directory else tree.nodes.lookup place

def setNode (tree : FileTree) (place : Place) (node : Node) : FileTree :=
  { tree with nodes := tree.nodes.filter (·.1 != place) ++ [(place, node)] }

def removeNode (tree : FileTree) (place : Place) : FileTree :=
  { tree with nodes := tree.nodes.filter (·.1 != place) }

def dot : Text := ['.']

/-- The steps of a path text for walking; a text that ends in a slash or a dot asks for a
    directory. -/
def walkSteps (t : Text) : List Text :=
  Path.stepsOf t ++ (if endsWith t ['/'] || endsWith t ['/', '.'] then [dot] else [])

/-- Where a walk ends: at a node, or at a free name in a directory. -/
inductive Destination
  | found (place : Place) (node : Node)
  | free (place : Place)

def maxLinks : Nat := 40

def maxName : Nat := 255

def maxPath : Nat := 4095

/-- Takes the steps one by one; `enter` goes on behind a link. The last step's own link is
    entered only when `through` holds. -/
def walkWith (tree : FileTree) (through : Bool)
    (enter : Place → List Text → Except Errno Destination) :
    Place → List Text → Except Errno Destination
  | place, [] =>
    match tree.node? place with
    | some node => .ok (.found place node)
    | none => .error .noEntry
  | place, step :: rest =>
    match tree.node? place with
    | some .directory =>
      if step == dot then walkWith tree through enter place rest
      else if step == Path.up then walkWith tree through enter place.dropLast rest
      else if maxName < (Utf8.encode step).length then .error .nameTooLong
      else
        let next := place ++ [step]
        match tree.node? next with
        | none => if rest.isEmpty then .ok (.free next) else .error .noEntry
        | some (.link target) =>
          if rest.isEmpty && !through then .ok (.found next (.link target))
          else enter (if startsWith target ['/'] then [] else place) (walkSteps target ++ rest)
        | some _ => walkWith tree through enter next rest
    | some _ => .error .notDirectory
    | none => .error .noEntry

def walk (tree : FileTree) (through : Bool) :
    (links : Nat) → Place → List Text → Except Errno Destination
  | 0 => walkWith tree through fun _ _ => .error .linkLoop
  | links + 1 => walkWith tree through (walk tree through links)

def locate (tree : FileTree) (through : Bool) (path : Text) : Except Errno Destination :=
  if path.isEmpty then .error .noEntry
  else if maxPath < (Utf8.encode path).length then .error .nameTooLong
  else
    walk tree through maxLinks (if startsWith path ['/'] then [] else tree.here) (walkSteps path)

def status (tree : FileTree) (path : Text) : Except FileError (Place × Node) :=
  if path.elem '\x00' then .error .nulCharacter
  else match tree.locate true path with
    | .ok (.found place node) => .ok (place, node)
    | .ok (.free _) => .error (.refused .noEntry path)
    | .error errno => .error (.refused errno path)

def isFile (tree : FileTree) (path : Text) : Bool :=
  match tree.status path with
  | .ok (_, .file _ _) => true
  | _ => false

def isDirectory (tree : FileTree) (path : Text) : Bool :=
  match tree.status path with
  | .ok (_, .directory) => true
  | _ => false

def read (tree : FileTree) (path : Text) : Except FileError (Bytes × Int) :=
  match tree.status path with
  | .ok (_, .file content modified) => .ok (content, modified)
  | .ok _ => .error (.refused .isDirectory path)
  | .error e => .error e

/-- Fills the file at a place beside the others. When the content does not fit, the file keeps the
    part that does. -/
def fill (tree : FileTree) (place : Place) (content : Bytes) (modified : Int) :
    Except FileError Unit × FileTree :=
  match tree.capacity with
  | none => (.ok (), tree.setNode place (.file content modified))
  | some capacity =>
    let others := tree.nodes.filter (·.1 != place)
    let room := others.foldl (fun room entry => room - entry.2.size) capacity
    (if room < content.length then .error .noSpace else .ok (),
      tree.setNode place (.file (content.take room) modified))

def put (tree : FileTree) (path : Text) (content : Bytes) (modified : Int) :
    Except FileError Unit × FileTree :=
  if path.elem '\x00' then (.error .nulCharacter, tree)
  else match tree.locate true path with
    | .ok (.found place (.file _ _)) | .ok (.free place) => tree.fill place content modified
    | .ok (.found _ _) => (.error (.refused .isDirectory path), tree)
    | .error errno => (.error (.refused errno path), tree)

def write (tree : FileTree) (path : Text) (content : Bytes) (modified : Int) :
    Except FileError FileTree :=
  match tree.put path content modified with
  | (.ok _, written) => .ok written
  | (.error e, _) => .error e

def makeDirectory (tree : FileTree) (path : Text) : Except FileError FileTree :=
  if path.elem '\x00' then .error .nulCharacter
  else match tree.locate false path with
    | .ok (.free place) => .ok (tree.setNode place .directory)
    | .ok (.found _ _) => .error (.refused .exists path)
    | .error errno => .error (.refused errno path)

def ensureDirectory (tree : FileTree) (path : Text) : Except FileError FileTree :=
  match tree.makeDirectory path with
  | .error (.refused errno failed) =>
    if errno != .noEntry && tree.isDirectory path then .ok tree
    else .error (.refused errno failed)
  | result => result

/-- Makes a directory and, where they are missing, those above it; the steps of the path are
    given last one first. What has been made before a failure stays. -/
def growDirectories (tree : FileTree) (root : Text) :
    (stepsReversed : List Text) → Except FileError Unit × FileTree
  | [] =>
    match tree.ensureDirectory (Path.toText ⟨root, []⟩) with
    | .ok grown => (.ok (), grown)
    | .error e => (.error e, tree)
  | step :: above =>
    let path := Path.toText ⟨root, (step :: above).reverse⟩
    match tree.ensureDirectory path with
    | .ok grown => (.ok (), grown)
    | .error (.refused .noEntry _) =>
      match growDirectories tree root above with
      | (.ok _, grown) =>
        match grown.ensureDirectory path with
        | .ok made => (.ok (), made)
        | .error e => (.error e, grown)
      | failed => failed
    | .error e => (.error e, tree)

def ensureDirectories (tree : FileTree) (root : Text) (stepsReversed : List Text) :
    Except FileError FileTree :=
  match tree.growDirectories root stepsReversed with
  | (.ok _, grown) => .ok grown
  | (.error e, _) => .error e

def putDirectory (tree : FileTree) (path : Text) : Except FileError FileTree :=
  let p := Path.ofText path
  tree.ensureDirectories p.root p.steps.reverse

def putParents (tree : FileTree) (path : Text) : Except FileError FileTree :=
  tree.putDirectory (Path.ofText path).parent.toText

def putFile (tree : FileTree) (path : Text) (content : Bytes) (modified : Int) :
    Except FileError FileTree := do
  (← tree.putParents path).write path content modified

def putLink (tree : FileTree) (path target : Text) : Except FileError FileTree := do
  let tree ← tree.putParents path
  match tree.locate false path with
  | .ok (.free place) => return tree.setNode place (.link target)
  | .ok (.found _ _) => throw (.refused .exists path)
  | .error errno => throw (.refused errno path)

def remove (tree : FileTree) (path : Text) : Except FileError FileTree :=
  if path.elem '\x00' then .error .nulCharacter
  else match tree.locate false path with
    | .ok (.found _ .directory) => .error (.refused .isDirectory path)
    | .ok (.found place _) => .ok (tree.removeNode place)
    | .ok (.free _) => .ok tree
    | .error .noEntry => .ok tree
    | .error errno => .error (.refused errno path)

def namesIn (tree : FileTree) (path : Text) : List Text :=
  match tree.status path with
  | .ok (place, .directory) =>
    tree.nodes.filterMap fun entry =>
      if entry.1.dropLast == place && !entry.1.isEmpty then entry.1.getLast? else none
  | _ => []

def placeText (place : Place) : Text := Path.toText ⟨['/'], place⟩

/-- The target of a link. A link whose path is too long cannot be looked at, and counts as a plain
    name. -/
def linkAt? (tree : FileTree) (place : Place) : Option Text :=
  match tree.node? place with
  | some (.link target) =>
    if (Utf8.encode (placeText place)).length ≤ maxPath then some target else none
  | _ => none

/-- The outcome of following links as far as they lead: a place without links, or the steps left
    over when a link leads back to itself. -/
inductive Real
  | place (place : Place)
  | stuck (steps : List Text)

def resolveWith (tree : FileTree) (enter : Place → Place → List Text → Real) :
    Place → List Text → Real
  | place, [] => .place place
  | place, step :: rest =>
    if step == Path.up then resolveWith tree enter place.dropLast rest
    else
      let next := place ++ [step]
      match tree.linkAt? next with
      | some target =>
        match enter next (if startsWith target ['/'] then [] else place)
            (Path.stepsOf target) with
        | .place reached => resolveWith tree enter reached rest
        | .stuck steps => .stuck (steps ++ rest)
      | none => resolveWith tree enter next rest

/-- Resolves with the links of `active` entered already; at most `depth` more are entered inside
    one another. -/
def resolveFrom (tree : FileTree) : (depth : Nat) → (active : List Place) → Place →
    List Text → Real
  | 0, _ => resolveWith tree fun link _ _ => .stuck link
  | depth + 1, active => resolveWith tree fun link start steps =>
    if active.contains link then .stuck link
    else resolveFrom tree depth (link :: active) start steps

inductive ResolveError
  | loop (path : Text)
  | nulCharacter
  deriving DecidableEq, Repr

def ResolveError.message : ResolveError → Text
  | .loop path => "Symlink loop from ".toList ++ quoted path
  | .nulCharacter => "embedded null byte".toList

/-- The real place of a path: links are followed, missing names are taken as they are. -/
def resolve (tree : FileTree) (path : Text) : Except ResolveError Place :=
  if path.elem '\x00' then .error .nulCharacter
  else
    let start := if startsWith path ['/'] then [] else tree.here
    let place := match resolveFrom tree (tree.nodes.length + 1) [] start (Path.stepsOf path) with
      | .place place => place
      | .stuck steps => (Path.flatten ⟨['/'], steps⟩).steps
    match tree.locate true (placeText place) with
    | .error .linkLoop => .error (.loop (placeText place))
    | _ => .ok place

end FileTree

end TemplateTypes
