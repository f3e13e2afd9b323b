import TemplateTypes.Files.Tree
import TemplateTypes.Source.Declaration
import TemplateTypes.Source.Shape

namespace TemplateTypes

open Text Source

inductive SourceFault
  | notFound (path : Text)
  | tooLarge (megabytes : Int) (path : Text)
  | unreadable (path : Text) (cause : FileError)
  | brokenSyntax (path : Text) (line : Nat)
  deriving DecidableEq, Repr

namespace SourceFault

def code : SourceFault → Text
  | .notFound _ => "NOT_FOUND".toList
  | .tooLarge _ _ => "FILE_TOO_LARGE".toList
  | .unreadable _ _ => "PERMISSION_DENIED".toList
  | .brokenSyntax _ _ => "PARSE_ERROR".toList

def message : SourceFault → Text
  | .notFound path => "File not found: ".toList ++ path
  | .tooLarge megabytes path =>
    "File exceeds size limit (".toList ++ ofInt megabytes ++ "MB): ".toList ++ path
  | .unreadable _ cause => "Cannot read file: ".toList ++ cause.message
  | .brokenSyntax _ line => "Syntax error at line ".toList ++ ofNat line

def file : SourceFault → Text
  | .notFound path | .tooLarge _ path | .unreadable path _ | .brokenSyntax path _ => path

def line : SourceFault → Option Nat
  | .brokenSyntax _ line => some line
  | _ => none

end SourceFault

/-- What a source text declares; the second argument admits elements in angle brackets. -/
abbrev SourceParser := Text → Bool → Module

/-- A parsed source; `stamp` tells it from all others of its cache. -/
structure ParsedFile where
  stamp : Nat
  content : Bytes
  module : Module
  deriving DecidableEq, Repr

namespace ParsedFile

def elementEnding : Text := ".tsx".toList

def ofContent (parser : SourceParser) (stamp : Nat) (path : Text) (content : Bytes) : ParsedFile :=
  ⟨stamp, content, parser (Utf8.decodeReplacing content) (endsWith path elementEnding)⟩

def shapes (file : ParsedFile) : List TypeShape := Source.shapes file.module.declarations

def componentClass? (file : ParsedFile) : Option Text :=
  Source.componentClass? file.module.declarations

def faults (file : ParsedFile) (path : Text) : List SourceFault :=
  (file.module.faultLine.map (SourceFault.brokenSyntax path)).toList

end ParsedFile

/-- A cached file with the modification time at which it was read. -/
structure ParseEntry where
  path : Text
  file : ParsedFile
  modified : Int
  deriving DecidableEq, Repr

/-- Entries are in order of use, the one used last at the end. -/
structure ParseCache where
  maxFiles : Int
  maxMegabytes : Int
  entries : List ParseEntry
  parsed : Nat
  hits : Nat
  misses : Nat
  deriving DecidableEq, Repr

inductive ParseOutcome
  | parsed (file : ParsedFile) (faults : List SourceFault)
  | refused (fault : SourceFault)
  -- The cache may hold no file at all, so that there is no room for this one.
  | noRoom
  deriving DecidableEq, Repr

def ParseOutcome.noRoomMessage : Text := quoted "dictionary is empty".toList

namespace ParseCache

def defaultMegabytes : Int := 5

def empty (maxFiles maxMegabytes : Int) : ParseCache := ⟨maxFiles, maxMegabytes, [], 0, 0, 0⟩

def paths (cache : ParseCache) : List Text := cache.entries.map (·.path)

def entry? (cache : ParseCache) (path : Text) : Option ParseEntry :=
  cache.entries.find? (·.path == path)

def invalidate (cache : ParseCache) (path : Text) : ParseCache :=
  { cache with entries := cache.entries.filter (·.path != path) }

def clear (cache : ParseCache) : ParseCache := { cache with entries := [] }

/-- The file is still there and has not been modified since the entry was made. -/
def isFresh (files : FileTree) (entry : ParseEntry) : Bool :=
  match files.status entry.path with
  | .ok (_, .file _ modified) => modified ≤ entry.modified
  | _ => false

def lookup (cache : ParseCache) (files : FileTree) (path : Text) :
    Option ParseEntry × ParseCache :=
  match cache.entry? path with
  | none => (none, cache)
  | some entry =>
    if isFresh files entry then (some entry, cache) else (none, cache.invalidate path)

def cached? (cache : ParseCache) (files : FileTree) (path : Text) :
    Option ParsedFile × ParseCache :=
  let (entry, cache) := cache.lookup files path
  (entry.map (·.file), cache)

def use (cache : ParseCache) (entry : ParseEntry) : ParseCache :=
  { cache with entries := cache.entries.filter (·.path != entry.path) ++ [entry] }

/-- Makes room by dropping the entries used least recently, and adds one; nothing is left when
    there is no room for any. -/
def insert (cache : ParseCache) (entry : ParseEntry) : Option ParseEntry × ParseCache :=
  if cache.maxFiles ≤ 0 then (none, { cache with entries := [] })
  else
    let excess := cache.entries.length + 1 - cache.maxFiles.toNat
    (some entry, { cache with entries := cache.entries.drop excess ++ [entry] })

def maxBytes (cache : ParseCache) : Int := cache.maxMegabytes * 1024 * 1024

/-- Reads a file that is not cached. A directory cannot be read, and counts as larger than
    nothing. -/
def fetch (cache : ParseCache) (files : FileTree) (path : Text) :
    Except SourceFault (Bytes × Int) :=
  match files.status path with
  | .error _ => .error (.notFound path)
  | .ok (_, .file content modified) =>
    if cache.maxBytes < content.length then .error (.tooLarge cache.maxMegabytes path)
    else .ok (content, modified)
  | .ok _ =>
    if cache.maxBytes ≤ 0 then .error (.tooLarge cache.maxMegabytes path)
    else .error (.unreadable path (.refused .isDirectory path))

def parse (parser : SourceParser) (cache : ParseCache) (files : FileTree) (path : Text) :
    ParseOutcome × ParseCache :=
  match cache.lookup files path with
  | (some entry, cache) => (.parsed entry.file [], { cache.use entry with hits := cache.hits + 1 })
  | (none, cache) =>
    match cache.fetch files path with
    | .error fault => (.refused fault, cache)
    | .ok (content, modified) =>
      let file := ParsedFile.ofContent parser cache.parsed path content
      let cache := { cache with parsed := cache.parsed + 1, misses := cache.misses + 1 }
      match cache.insert ⟨path, file, modified⟩ with
      | (none, cache) => (.noRoom, cache)
      | (some _, cache) => (.parsed file (file.faults path), cache)

end ParseCache

end TemplateTypes
