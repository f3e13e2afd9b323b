import TemplateTypes.Text.Letter
import TemplateTypes.TypeText.Brackets
import TemplateTypes.TypeText.Normal

namespace TemplateTypes

open Text TypeText

/-- A type as declared; the text is empty when the signature declares none. -/
structure DeclaredType where
  type : Text
  optional : Bool
  deriving DecidableEq, Repr

namespace Signature

def undeclared : DeclaredType := ⟨[], false⟩

def withoutLabel (t : Text) : Text :=
  match t with
  | '(' :: c :: rest =>
    if c.isAlpha then
      match rest.dropWhile fun d => isWord d || d == ' ' with
      | ')' :: after => trimStart after
      | _ => t
    else t
  | _ => t

def modifiers : List Text :=
  ["readonly", "public", "private", "protected", "static", "declare", "export", "default",
    "abstract", "async", "const", "let", "var", "function", "get", "set", "type",
    "interface"].map String.toList

def dropModifiers : List Text → List Text
  | word :: next :: words =>
    if word ∈ modifiers then dropModifiers (next :: words) else word :: next :: words
  | words => words

/-- A signature, its words separated by single spaces, without the modifiers it starts with. -/
def withoutModifiers (t : Text) : Text := join [' '] (dropModifiers (pieces ' ' t))

def isMemberStart (c : Char) : Bool := isNameStart c || c == '#'

def afterMemberPart : Text → Text
  | '.' :: c :: rest => if isMemberStart c then afterMemberPart rest else '.' :: c :: rest
  | c :: rest => if isNamePart c then afterMemberPart rest else c :: rest
  | [] => []

/-- What follows the member name, dots included, at the start of a signature. -/
def afterMember? : Text → Option Text
  | [] => none
  | c :: rest => if isMemberStart c then some (afterMemberPart rest) else none

def afterAngle? (s : Scanner) : Text → Option Text
  | [] => none
  | c :: rest => if s.seesTop c && c == '>' then some rest else afterAngle? (s.next c) rest

/-- What follows a list of type parameters; one that never closes counts as its first
    character. -/
def afterTypeParameters (t : Text) : Text :=
  match t with
  | '<' :: rest => (((afterAngle? .start t).getD rest).dropWhile (· == ' '))
  | _ => t

/-- The parameter list and what follows it, for a signature that declares a method. -/
def methodTail? (t : Text) : Option Text :=
  match afterMember? t with
  | none => none
  | some rest =>
    match afterTypeParameters (rest.dropWhile fun c => c == '?' || c == '!' || c == ' ') with
    | '(' :: more => some ('(' :: more)
    | _ => none

/-- A parameter's type text up to its default value. An arrow is no default value, and after an
    arrow none is looked for. -/
def withoutDefault (t : Text) : Text :=
  match findTop? '=' t 0 with
  | none => t
  | some i => if t[i + 1]? == some '>' then t else t.take i

def parameterType (parameter : Text) : DeclaredType :=
  match findTop? ':' parameter 0 with
  | none => ⟨TypeText.any, endsWith (trimEnd parameter) ['?']⟩
  | some i =>
    ⟨trim (withoutDefault (parameter.drop (i + 1))), endsWith (trimEnd (parameter.take i)) ['?']⟩

def methodType (t : Text) : DeclaredType :=
  match matchingParen? t 0 with
  | none => undeclared
  | some close =>
    match splitTop ',' ((t.take close).drop 1) with
    | first :: _ => parameterType first
    | [] =>
      match trim (t.drop (close + 1)) with
      | ':' :: result => ⟨trim result, false⟩
      | _ => undeclared

def propertyType (t : Text) : DeclaredType :=
  match findTop? ':' t 0 with
  | none => undeclared
  | some i => ⟨trim (t.drop (i + 1)), endsWith (trimEnd (t.take i)) ['?']⟩

def declared (signature : Text) : DeclaredType :=
  let t := withoutModifiers (withoutLabel (tidy signature))
  match methodTail? t with
  | some tail => methodType tail
  | none => propertyType t

end Signature

end TemplateTypes
