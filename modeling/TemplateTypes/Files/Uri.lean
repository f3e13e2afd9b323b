import TemplateTypes.Files.Host
import TemplateTypes.Files.Path

namespace TemplateTypes

open Text

inductive UriError
  | unsupported (uri : Text)
  | host (cause : HostError)
  deriving DecidableEq, Repr

def UriError.message : UriError → Text
  | .unsupported uri => "Unsupported document URI: ".toList ++ uri
  | .host cause => cause.message

namespace Uri

def isUnreserved (b : UInt8) : Bool :=
  let c := Char.ofNat b.toNat
  b < 128 && (c.isAlphanum || c == '_' || c == '.' || c == '-' || c == '~' || c == '/')

/-- A byte by itself or as a percent sign and two capital hexadecimal digits. -/
def encodeByte (b : UInt8) : Text :=
  if isUnreserved b then [Char.ofNat b.toNat]
  else '%' :: (hex 2 b.toNat).map Char.toUpper

def scheme : Text := "file".toList

def ofPath (p : Path) : Text := "file://".toList ++ (Utf8.encode p.toText).flatMap encodeByte

/-- The bytes of ASCII text with its percent escapes resolved, the first `skip` characters left
    out. A percent sign without two digits stands for itself. -/
def percentBytesFrom : (skip : Nat) → Text → Bytes
  | _, [] => []
  | skip + 1, _ :: rest => percentBytesFrom skip rest
  | 0, c :: rest =>
    if c == '%' then
      match hexByte? rest with
      | some b => b :: percentBytesFrom 2 rest
      | none => c.toNat.toUInt8 :: percentBytesFrom 0 rest
    else c.toNat.toUInt8 :: percentBytesFrom 0 rest

/-- Resolves percent escapes. Stretches of ASCII are read as UTF-8 each by itself; `run` is the
    current one, its last character first. -/
def unquoteFrom (run : Text) : Text → Text
  | [] => Utf8.decodeReplacing (percentBytesFrom 0 run.reverse)
  | c :: rest =>
    if c.toNat < 128 then unquoteFrom (c :: run) rest
    else Utf8.decodeReplacing (percentBytesFrom 0 run.reverse) ++ c :: unquoteFrom [] rest

def unquote (t : Text) : Text := unquoteFrom [] t

/-- Control characters and spaces in front and tabs and line ends anywhere are dropped. -/
def cleaned (uri : Text) : Text :=
  (uri.dropWhile fun c => c.toNat ≤ 32).filter fun c => c != '\t' && c != '\n' && c != '\r'

def authority (t : Text) : Text × Text :=
  match t with
  | '/' :: '/' :: rest =>
    let stops (c : Char) : Bool := c != '/' && c != '?' && c != '#'
    (rest.takeWhile stops, rest.dropWhile stops)
  | _ => ([], t)

def isScheme (t : Text) : Bool :=
  t.head?.any Char.isAlpha && t.all fun c => c.isAlphanum || c == '+' || c == '-' || c == '.'

/-- The scheme in small letters and what follows its colon; it is empty where there is none. -/
def splitScheme (t : Text) : Text × Text :=
  match cut ':' t with
  | (before, some rest) => if isScheme before then (lower before, rest) else ([], t)
  | _ => ([], t)

/-- The path that a document URI names; its authority, query and fragment do not count. -/
def toPath (uri : Text) : Except UriError Path :=
  let (found, rest) := splitScheme (cleaned uri)
  let (host, after) := authority rest
  match Host.fault? host with
  | some cause => .error (.host cause)
  | none =>
    if found != scheme then .error (.unsupported uri)
    else .ok (.ofText (unquote ((after.takeWhile (· != '#')).takeWhile (· != '?'))))

end Uri

end TemplateTypes
