import TemplateTypes.Source.Literals

namespace TemplateTypes.Source

open Text

namespace Parse

def typeArguments (g : Grammar) : Parse Unit := do
  char '<'
  listUntil '>' (g .type)

def typeParameter (g : Grammar) : Parse Unit := do
  loop do
    if ← isAnyWord ["const", "in", "out"] then
      attempt do
        let _ ← anyWord
        unless (← word?).isSome do fail
        if ← isWord "extends" then fail
    else return false
  let _ ← anyWord
  if ← acceptWord "extends" then g .type
  if ← acceptSign "=" then g .type

def typeParameters (g : Grammar) : Parse Unit := do
  char '<'
  listUntil '>' (typeParameter g)

def maybeTypeParameters (g : Grammar) : Parse Unit := do
  if ← isChar '<' then typeParameters g

/-- A result type, which may also say what holds of an argument when the function returns. -/
def resultType (g : Grammar) : Parse Unit :=
  either
    (do
      if ← isWord "asserts" then
        let narrows ← attempt do
          word "asserts"
          if ← afterNewline then fail
          let _ ← anyWord
          if (← isWord "is") && !(← afterNewline) then
            word "is"
            g .type
        if narrows then return
        fail
      let _ ← anyWord
      if ← afterNewline then fail
      word "is"
      g .type)
    (g .type)

def annotated (p : Parse Unit) : Parse Text := do
  let t ← spelled do
    expect ":"
    p
  return trim (t.drop 1)

def maybeAnnotated (p : Parse Unit) : Parse (Option Text) := do
  if ← isSign ":" then return some (← annotated p)
  return none

/-- What stands behind the sign of a decorator: a name with dots, or an expression in parentheses,
    and arguments. The callee is given. -/
def decoratorExpression (g : Grammar) : Parse Text := do
  let callee ← spelled do
    if ← acceptChar '(' then
      sequence g true
      char ')'
    else
      let _ ← anyWord
      loop do
        if ← acceptSign "." then
          memberName
          return true
        return false
  let _ ← attempt do
    typeArguments g
    unless ← isChar '(' do fail
  loop do
    if ← isChar '(' then
      arguments g
      return true
    return false
  return callee

def decorator (g : Grammar) : Parse Decorator := fun cursor =>
  match char '@' cursor with
  | .error e => .error e
  | .ok (_, begun) =>
    match decoratorExpression g begun with
    | .error e => .error e
    | .ok (callee, next) =>
      .ok (⟨next.textSince cursor, begun.offset - cursor.offset, callee.length⟩, next)

def decorators (g : Grammar) : Parse (List Decorator) :=
  collect do
    if ← isChar '@' then return some [← decorator g]
    return none

def parameterModifier? (words : List String) : Parse Bool := do
  if ← isAnyWord words then
    attempt do
      let _ ← anyWord
      unless (← word?).isSome || (← isChar '\x7b') || (← isChar '[') || (← isSign "...") do fail
  else return false

def parameter (g : Grammar) : Parse Parameter := do
  let _ ← decorators g
  let accessible ← parameterModifier? ["public", "private", "protected"]
  let _ ← parameterModifier? ["override"]
  let readOnly ← parameterModifier? ["readonly"]
  let pattern ← spelled do
    let _ ← acceptSign "..."
    g .pattern
  let isOptional ← acceptSign "?"
  let type ← maybeAnnotated (g .type)
  if ← acceptSign "=" then g (.expression true true)
  return ⟨pattern, type, isOptional, accessible || readOnly⟩

def parameters (g : Grammar) : Parse (List Parameter) := do
  char '('
  collect do
    if ← acceptChar ')' then return none
    let found ← parameter g
    unless ← isChar ')' do expect ","
    return some [found]

def callSignature (g : Grammar) : Parse (List Parameter × Option Text) := do
  maybeTypeParameters g
  let found ← parameters g
  let result ← maybeAnnotated (resultType g)
  return (found, result)

def indexSignature (g : Grammar) : Parse Unit := do
  char '['
  let _ ← anyWord
  if ← acceptSign ":" then g .type
  else
    word "in"
    g .type
    if ← acceptWord "as" then g .type
  char ']'
  let _ ← acceptSign "+"
  let _ ← acceptSign "-"
  let _ ← acceptSign "?"
  if ← acceptSign ":" then g .type

def memberEnd : Parse Unit := do
  if ← acceptSign "," then return
  semicolon

def accessorOf (found : Option Text) : Option Accessor :=
  if found == some "get".toList then some .get
  else if found == some "set".toList then some .set
  else none

def modifiers (words : List String) (lineEnds : Bool) : Parse (Option Accessor) := do
  let found ← collect do
    match ← modifier? words lineEnds with
    | some w => return some [w]
    | none => return none
  return found.findSome? fun w => accessorOf (some w)

/-- A member of an interface or an object type; signatures without a name are none. -/
def typeMember (g : Grammar) : Parse (List Member) := do
  if (← isChar '(') || (← isChar '<') then
    let _ ← callSignature g
    memberEnd
    return []
  let constructs ← attempt do
    word "new"
    unless (← isChar '(') || (← isChar '<') do fail
  if constructs then
    let _ ← callSignature g
    memberEnd
    return []
  let accessor ← modifiers
    ["public", "private", "protected", "static", "override", "readonly", "async", "get", "set"] true
  if ← isChar '[' then
    if ← attempt (indexSignature g) then
      memberEnd
      return []
  let name ← spelled (propertyName g)
  let isOptional ← acceptSign "?"
  if (← isChar '(') || (← isChar '<') then
    let (found, result) ← callSignature g
    memberEnd
    return [.method name accessor found result]
  let type ← maybeAnnotated (g .type)
  memberEnd
  return [.property name type none isOptional]

def mappedType (g : Grammar) : Parse Unit := do
  char '\x7b'
  let _ ← acceptSign "+"
  let _ ← acceptSign "-"
  let _ ← acceptWord "readonly"
  char '['
  let _ ← anyWord
  word "in"
  g .type
  if ← acceptWord "as" then g .type
  char ']'
  let _ ← acceptSign "+"
  let _ ← acceptSign "-"
  let _ ← acceptSign "?"
  if ← acceptSign ":" then g .type
  let _ ← acceptSign ";"
  char '\x7d'

/-- An object type with its members; one made of the names of another type has none. -/
def objectType (g : Grammar) : Parse (List Member) := do
  if ← attempt (mappedType g) then return []
  char '\x7b'
  collect do
    if ← acceptChar '\x7d' then return none
    if (← acceptSign ";") || (← acceptSign ",") then return some []
    if ← atEnd then fail
    return some (← typeMember g)

def tupleItem (g : Grammar) : Parse Unit := do
  let _ ← acceptSign "..."
  let _ ← attempt do
    let _ ← anyWord
    let _ ← acceptSign "?"
    expect ":"
  g .type
  let _ ← acceptSign "?"

def typeName (g : Grammar) : Parse Unit := do
  let _ ← anyWord
  loop do
    if ← acceptSign "." then
      memberName
      return true
    return false
  if (← isChar '<') && !(← afterNewline) then typeArguments g

def functionType (g : Grammar) : Parse Unit := do
  maybeTypeParameters g
  let _ ← parameters g
  expect "=>"
  resultType g

def importType (g : Grammar) : Parse Unit := do
  word "import"
  arguments g
  loop do
    if ← acceptSign "." then
      let _ ← anyWord
      return true
    return false
  if ← isChar '<' then typeArguments g

def noTypeWords : List String := ["extends", "implements", "in", "instanceof", "return", "case"]

def namedType (g : Grammar) : Parse Unit := do
  if ← isWord "import" then importType g
  else if ← isWord "typeof" then
    word "typeof"
    if ← isWord "import" then importType g else typeName g
  else if (← isWord "new") || (← isWord "abstract") then
    either
      (do
        let _ ← acceptWord "abstract"
        word "new"
        functionType g)
      (typeName g)
  else if ← isAnyWord noTypeWords then fail
  else typeName g

def inferredType (g : Grammar) : Parse Unit := do
  word "infer"
  let _ ← anyWord
  let _ ← attempt do
    word "extends"
    g .type

def primaryType (g : Grammar) : Parse Unit := do
  let t ← rest
  let c := t.head?
  if c == some '(' then
    either (functionType g) do
      char '('
      g .type
      char ')'
  else if c == some '<' then functionType g
  else if c == some '\x7b' then
    let _ ← objectType g
  else if c == some '[' then
    char '['
    listUntil ']' (tupleItem g)
  else if isStringStart c then stringLiteral
  else if c == some backtick then templateLiteral (g .type)
  else if isNumberStart t then number
  else if c == some '-' then
    char '-'
    number
  else if ← isWord "infer" then either (inferredType g) (typeName g)
  else if (← word?).isSome then namedType g
  else fail

def typeOperators : List String := ["keyof", "unique", "readonly"]

def operandType (g : Grammar) : Parse Unit := do
  loop do
    if ← isAnyWord typeOperators then
      attempt do
        let _ ← anyWord
        let c ← peek
        unless (← word?).isSome || isStringStart c || c == some '(' || c == some '[' ||
            c == some '\x7b' || c == some backtick do fail
    else return false
  primaryType g
  loop do
    if (← isChar '[') && !(← afterNewline) then
      char '['
      unless ← isChar ']' do g .type
      char ']'
      return true
    return false

def unionType (g : Grammar) : Parse Unit := do
  unless ← acceptSign "|" do
    let _ ← acceptSign "&"
  operandType g
  loop do
    if (← acceptSign "|") || (← acceptSign "&") then
      operandType g
      return true
    return false

def type (g : Grammar) : Parse Unit := do
  unionType g
  let _ ← attempt do
    if ← afterNewline then unless ← isWord "extends" do fail
    word "extends"
    g .type
    expect "?"
    g .type
    expect ":"
    g .type

end Parse

end TemplateTypes.Source
