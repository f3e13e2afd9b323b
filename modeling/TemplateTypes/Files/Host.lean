import TemplateTypes.Text.Quoted

namespace TemplateTypes

open Text

inductive HostError
  | unmatched
  | noAddress (host : Text)
  -- An address of four numbers takes no brackets.
  | shortAddress
  | laterAddress
  deriving DecidableEq, Repr

def HostError.message : HostError → Text
  | .unmatched => "Invalid IPv6 URL".toList
  | .noAddress host => quoted host ++ " does not appear to be an IPv4 or IPv6 address".toList
  | .shortAddress => "An IPv4 address cannot be in brackets".toList
  | .laterAddress => "IPvFuture address is invalid".toList

namespace Host

def isOctet (t : Text) : Bool :=
  !t.isEmpty && t.length ≤ 3 && t.all Char.isDigit && (t.length == 1 || t.head? != some '0') &&
    t.foldl (fun n c => n * 10 + (c.toNat - 48)) 0 ≤ 255

def isShort (t : Text) : Bool :=
  let parts := pieces '.' t
  parts.length == 4 && parts.all isOctet

def isGroup (t : Text) : Bool := !t.isEmpty && t.length ≤ 4 && t.all isHexDigit

/-- Groups on one side of the gap; the side may be empty where the address begins or ends. -/
def side (parts : List Text) : List Text := if parts == [[]] then [] else parts

def areGroups (parts : List Text) : Bool :=
  let inner := (parts.drop 1).dropLast
  if inner.any (·.isEmpty) then
    let before := parts.take (1 + (inner.takeWhile (!·.isEmpty)).length)
    let found := side before ++ side (parts.drop (before.length + 1))
    found.length ≤ 7 && found.all isGroup
  else parts.length == 8 && parts.all isGroup

/-- Groups with colons between them, the last two perhaps written as four numbers, and a zone. -/
def isLong (t : Text) : Bool :=
  let (address, zone) := cut '%' t
  let parts := pieces ':' address
  let last := parts.getLast?.getD []
  let zero : Text := ['0']
  let groups := if last.elem '.' then parts.dropLast ++ [zero, zero] else parts
  3 ≤ parts.length && areGroups groups && (!last.elem '.' || isShort last) &&
    zone.all fun z => !z.isEmpty && !z.elem '%'

def isLater (t : Text) : Bool :=
  match t.drop 1 |>.dropWhile isHexDigit with
  | '.' :: _ :: _ => (t.drop 1).head?.any isHexDigit
  | _ => false

def bracketedFault? (t : Text) : Option HostError :=
  if t.head? == some 'v' then if isLater t then none else some .laterAddress
  else if isShort t then some .shortAddress
  else if isLong t then none
  else some (.noAddress t)

def fault? (authority : Text) : Option HostError :=
  match authority.elem '[', authority.elem ']' with
  | false, false => none
  | true, true => bracketedFault? (cut ']' ((cut '[' authority).2.getD [])).1
  | _, _ => some .unmatched

end Host

end TemplateTypes
