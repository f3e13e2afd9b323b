import TemplateTypes.Source.Cache
import TemplateTypes.Source.Parser
import TemplateTypes.Workspace.Root

namespace TemplateTypes

open Text

/-- A file attached to its workspace; `serial` tells it from all other files and workspaces of the
    cache. -/
structure FileHandle where
  serial : Nat
  path : Text
  file : ParsedFile
  attachedAt : Int
  deriving DecidableEq, Repr

/-- Tracked files are in the order in which they were attached. -/
structure Workspace where
  serial : Nat
  root : Text
  config : Option Text
  parses : ParseCache
  lastAccessed : Int
  tracked : List FileHandle
  deriving DecidableEq, Repr

namespace Workspace

def handle? (w : Workspace) (path : Text) : Option FileHandle :=
  w.tracked.find? (·.path == path)

def shed (w : Workspace) : Workspace :=
  let dropped := w.tracked.take (w.tracked.length / 2)
  { w with
    tracked := w.tracked.drop (w.tracked.length / 2)
    parses := dropped.foldl (fun parses handle => parses.invalidate handle.path) w.parses }

def track (w : Workspace) (maxFiles : Int) (handle : FileHandle) : Workspace :=
  let tracked := w.tracked.filter (·.path != handle.path) ++ [handle]
  if maxFiles < tracked.length then shed { w with tracked } else { w with tracked }

end Workspace

structure WorkspaceLimits where
  maxWorkspaces : Int
  maxFiles : Int
  idleTime : Int
  markers : List Text
  configs : List Text
  parser : SourceParser

def WorkspaceLimits.default : WorkspaceLimits :=
  ⟨5, 100, 300000, Workspace.defaultMarkers, Workspace.defaultConfigs, Source.Module.ofText⟩

structure WorkspaceCache where
  limits : WorkspaceLimits
  serial : Nat
  workspaces : List Workspace

/-- A cache that may hold no workspace, or whose workspaces may hold no file, cannot be used. -/
inductive CapacityError
  | noWorkspace
  | noFile
  deriving DecidableEq, Repr

def CapacityError.message : CapacityError → Text
  | .noWorkspace => "min() arg is an empty sequence".toList
  | .noFile => ParseOutcome.noRoomMessage

namespace WorkspaceCache

def empty (limits : WorkspaceLimits) : WorkspaceCache := ⟨limits, 0, []⟩

def rootOf (cache : WorkspaceCache) (files : FileTree) (path : Text) : Path :=
  Workspace.rootOf files cache.limits.markers path

def workspace? (cache : WorkspaceCache) (root : Text) : Option Workspace :=
  cache.workspaces.find? (·.root == root)

def drop (cache : WorkspaceCache) (root : Text) : WorkspaceCache :=
  { cache with workspaces := cache.workspaces.filter (·.root != root) }

def put (w : Workspace) : List Workspace → List Workspace
  | [] => [w]
  | first :: more => if first.root == w.root then w :: more else first :: put w more

def store (cache : WorkspaceCache) (w : Workspace) : WorkspaceCache :=
  { cache with workspaces := put w cache.workspaces }

def dropIdle (cache : WorkspaceCache) (now : Int) : WorkspaceCache :=
  { cache with
    workspaces := cache.workspaces.filter fun w =>
      now - w.lastAccessed ≤ cache.limits.idleTime }

def oldest? : List Workspace → Option Workspace
  | [] => none
  | w :: more =>
    match oldest? more with
    | none => some w
    | some other => if other.lastAccessed < w.lastAccessed then some other else some w

def dropOldest (cache : WorkspaceCache) : (n : Nat) → WorkspaceCache
  | 0 => cache
  | n + 1 =>
    match oldest? cache.workspaces with
    | none => cache
    | some w => dropOldest (cache.drop w.root) n

def makeRoom (cache : WorkspaceCache) : Except CapacityError Unit × WorkspaceCache :=
  if cache.limits.maxWorkspaces ≤ 0 then
    (.error .noWorkspace, { cache with workspaces := [] })
  else
    (.ok (), cache.dropOldest (cache.workspaces.length + 1 - cache.limits.maxWorkspaces.toNat))

def workspaceOf (cache : WorkspaceCache) (files : FileTree) (now : Int) (path : Text) :
    Except CapacityError Workspace × WorkspaceCache :=
  let root := (cache.rootOf files path).toText
  match cache.workspace? root with
  | some w =>
    let w := { w with lastAccessed := now }
    (.ok w, cache.store w)
  | none =>
    match (cache.dropIdle now).makeRoom with
    | (.error e, cache) => (.error e, cache)
    | (.ok _, cache) =>
      let w : Workspace :=
        ⟨cache.serial, root, Workspace.configOf files cache.limits.configs root,
          .empty cache.limits.maxFiles ParseCache.defaultMegabytes, now, []⟩
      (.ok w, { cache.store w with serial := cache.serial + 1 })

def attachParsed (cache : WorkspaceCache) (files : FileTree) (now : Int) (w : Workspace)
    (path : Text) : Except CapacityError (Option FileHandle) × WorkspaceCache :=
  match w.parses.parse cache.limits.parser files path with
  | (.noRoom, parses) => (.error .noFile, cache.store { w with parses })
  | (.refused _, parses) => (.ok none, cache.store { w with parses })
  | (.parsed file _, parses) =>
    let handle : FileHandle := ⟨cache.serial, path, file, now⟩
    let w := { w with parses }.track cache.limits.maxFiles handle
    (.ok (some handle), { cache.store w with serial := cache.serial + 1 })

/-- The handle of a file, which is parsed and attached to its workspace unless it is attached
    already and has not changed. There is none for a file that is missing or too large. -/
def attach (cache : WorkspaceCache) (files : FileTree) (now : Int) (path : Text) :
    Except CapacityError (Option FileHandle) × WorkspaceCache :=
  let path := (Workspace.absolute files path).toText
  if !files.isFile path then (.ok none, cache)
  else
    match cache.workspaceOf files now path with
    | (.error e, cache) => (.error e, cache)
    | (.ok w, cache) =>
      match w.handle? path with
      | none => cache.attachParsed files now w path
      | some handle =>
        let (current, parses) := w.parses.cached? files path
        let w := { w with parses }
        if current.map (·.stamp) = some handle.file.stamp then (.ok (some handle), cache.store w)
        else (cache.store w).attachParsed files now w path

def evict (cache : WorkspaceCache) (files : FileTree) (root : Text) : WorkspaceCache :=
  cache.drop (Workspace.absolute files root).toText

def evictAll (cache : WorkspaceCache) : WorkspaceCache := { cache with workspaces := [] }

def holds (cache : WorkspaceCache) (files : FileTree) (root : Text) : Bool :=
  (cache.workspace? (Workspace.absolute files root).toText).isSome

def counts (cache : WorkspaceCache) : Nat × Nat :=
  (cache.workspaces.length, cache.workspaces.foldl (fun n w => n + w.tracked.length) 0)

end WorkspaceCache

end TemplateTypes
