import TemplateTypes.Source.Cursor

namespace TemplateTypes.Source

open Text Parse

inductive Goal
  | statement
  -- An expression without top level commas. `inOperator` admits the operator `in`, `typed` a
  -- result type in the head of an arrow function.
  | expression (inOperator typed : Bool)
  -- An expression without operators around it.
  | operand
  | type
  | pattern
  -- An element in angle brackets.
  | element

abbrev Grammar := Goal → Parse Unit

/-- Length of the literal whose opening quote was just read, up to its closing quote. -/
def quotedLength? (quote : Char) (escaped : Bool) : Text → Option Nat
  | [] => none
  | c :: rest =>
    if escaped then (quotedLength? quote false rest).map (· + 1)
    else if c == quote then some 1
    else if c == '\n' then none
    else (quotedLength? quote (c == '\\') rest).map (· + 1)

/-- Length of a pattern between slashes whose first slash was just read, up to the second one. -/
def slashedLength? (inClass escaped : Bool) : Text → Option Nat
  | [] => none
  | c :: rest =>
    if c == '\n' then none
    else if escaped then (slashedLength? inClass false rest).map (· + 1)
    else if c == '/' && !inClass then some 1
    else
      let inClass := if c == '[' then true else if c == ']' then false else inClass
      (slashedLength? inClass (c == '\\') rest).map (· + 1)

def digitsLength (t : Text) : Nat := (t.takeWhile fun c => c.isDigit || c == '_').length

def exponentLength (t : Text) : Nat :=
  match t with
  | c :: rest =>
    if c == 'e' || c == 'E' then
      match rest with
      | s :: more =>
        if (s == '+' || s == '-') && more.head?.any Char.isDigit then 2 + digitsLength more
        else if s.isDigit then 1 + digitsLength rest
        else 0
      | [] => 0
    else 0
  | [] => 0

def numberLength (t : Text) : Nat :=
  let withRadix := match t with
    | '0' :: c :: _ => c.isAlpha && c.toLower != 'e' && c != 'n'
    | _ => false
  if withRadix then (t.takeWhile isWordChar).length
  else
    let whole := digitsLength t
    let point := match t.drop whole with
      | '.' :: rest => 1 + digitsLength rest
      | _ => 0
    let size := whole + point
    let size := size + exponentLength (t.drop size)
    size + ((t.drop size).takeWhile isWordChar).length

/-- Length of the stretch of a template up to a backtick or an embedded expression. -/
def stretchLength? (escaped : Bool) : Text → Option Nat
  | [] => none
  | c :: rest =>
    if escaped then (stretchLength? false rest).map (· + 1)
    else if c == backtick || (c == '$' && rest.head? == some '\x7b') then some 0
    else (stretchLength? (c == '\\') rest).map (· + 1)

namespace Parse

def raw (n : Nat) : Parse Unit := modify fun cursor => cursor.drop n

def rest : Parse Text := fun cursor => .ok (cursor.rest, cursor)

def stringLiteral : Parse Unit := do
  match ← rest with
  | c :: more =>
    if c == singleQuote || c == doubleQuote then
      match quotedLength? c false more with
      | some n => token (n + 1)
      | none => fail
    else fail
  | [] => fail

def number : Parse Unit := do token (numberLength (← rest))

def slashed : Parse Unit := do
  match ← rest with
  | '/' :: more =>
    match slashedLength? false false more with
    | some n => token (n + 1 + ((more.drop n).takeWhile isWordChar).length)
    | none => fail
  | _ => fail

/-- A literal between backticks; `embedded` reads what stands between braces in it. -/
def templateLiteral (embedded : Parse Unit) : Parse Unit := do
  raw 1
  loop do
    match stretchLength? false (← rest) with
    | none => fail
    | some n =>
      raw n
      if (← peek) == some backtick then
        token 1
        return false
      token 2
      embedded
      unless ← isChar '\x7d' do fail
      raw 1
      return true

def isStringStart (c : Option Char) : Bool := c == some singleQuote || c == some doubleQuote

def isNumberStart (t : Text) : Bool :=
  match t with
  | '.' :: c :: _ => c.isDigit
  | c :: _ => c.isDigit
  | [] => false

def memberName : Parse Unit := do
  if ← acceptChar '#' then pure ()
  let _ ← anyWord

def nameAhead : Parse Bool := do
  let t ← rest
  let c := t.head?
  return (wordAt? t).isSome || isStringStart c || isNumberStart t || c == some '[' || c == some '#'

def propertyName (g : Grammar) : Parse Unit := do
  let t ← rest
  if isStringStart t.head? then stringLiteral
  else if isNumberStart t then number
  else if ← acceptChar '[' then
    g (.expression true true)
    char ']'
  else memberName

/-- Reads one of the words when a property name or an asterisk follows it. Where a new line ends
    a member, the word is a name of its own at the end of its line. -/
def modifier? (words : List String) (lineEnds : Bool) : Parse (Option Text) := do
  match ← word? with
  | none => return none
  | some w =>
    if words.any fun candidate => candidate.toList == w then
      let isModifier ← ahead do
        token w.length
        if lineEnds && (← afterNewline) then fail
        unless (← nameAhead) || (← isChar '*') do fail
      if isModifier then
        token w.length
        return some w
      return none
    else return none

def sequence (g : Grammar) (inOperator : Bool) : Parse Unit := do
  g (.expression inOperator true)
  loop do
    if ← acceptSign "," then
      g (.expression inOperator true)
      setLiteral none
      return true
    return false

def block (g : Grammar) : Parse Unit := do
  char '\x7b'
  loop do
    if ← acceptChar '\x7d' then return false
    if ← atEnd then fail
    g .statement
    return true

def arguments (g : Grammar) : Parse Unit := do
  char '('
  listUntil ')' do
    let _ ← acceptSign "..."
    g (.expression true true)

end Parse

end TemplateTypes.Source
