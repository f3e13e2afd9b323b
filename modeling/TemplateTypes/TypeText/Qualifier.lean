import TemplateTypes.Text.Basic

namespace TemplateTypes.TypeText

open Text

def afterClosing? (t : Text) : Option Text :=
  match trimStart t with
  | ')' :: '.' :: rest => some rest
  | _ => none

def afterLiteral? (quote : Char) : Text → Option Text
  | [] => none
  | c :: rest =>
    if c == quote then
      match rest.dropWhile (· != quote) with
      | [] => none
      | _ :: more => afterClosing? more
    else none

def afterBare? (t : Text) : Option Text :=
  match t.dropWhile (· != ')') with
  | ')' :: '.' :: rest => some rest
  | _ => none

/-- What follows a qualifier that begins here. Its argument is a literal or, failing that,
    whatever stands before the first parenthesis. -/
def afterQualifier? (t : Text) : Option Text :=
  match after? "import(".toList t with
  | none => none
  | some argument =>
    let argument := trimStart argument
    afterLiteral? doubleQuote argument <|> afterLiteral? singleQuote argument <|>
      afterBare? argument

def withoutQualifiersFrom : (skip : Nat) → Text → Text
  | _, [] => []
  | skip + 1, _ :: rest => withoutQualifiersFrom skip rest
  | 0, c :: rest =>
    match afterQualifier? (c :: rest) with
    | some after => withoutQualifiersFrom (rest.length - after.length) rest
    | none => c :: withoutQualifiersFrom 0 rest

def withoutQualifiers (t : Text) : Text := withoutQualifiersFrom 0 t

end TemplateTypes.TypeText
