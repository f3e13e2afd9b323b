import TemplateTypes.Source.Expressions

namespace TemplateTypes.Source

open Text

namespace Parse

def expressionStatement (g : Grammar) : Parse Unit := do
  sequence g true
  semicolon

def functionDeclaration (g : Grammar) : Parse Unit := do
  functionHead g
  if ← isChar '\x7b' then block g else semicolon

def enumDeclaration (g : Grammar) : Parse Unit := do
  let _ ← acceptWord "const"
  word "enum"
  let _ ← anyWord
  char '\x7b'
  listUntil '\x7d' do
    propertyName g
    maybeDefault g

def bindings (g : Grammar) (inOperator : Bool) : Parse Unit :=
  loop do
    g .pattern
    let _ ← acceptSign "!"
    let _ ← maybeAnnotated (g .type)
    if ← acceptSign "=" then g (.expression inOperator true)
    acceptSign ","

def bindingWord : Parse Unit := do
  unless (← acceptWord "var") || (← acceptWord "const") do
    word "let"
    unless (← word?).isSome || (← isChar '\x7b') || (← isChar '[') do fail

def bindingStatement (g : Grammar) : Parse Unit := do
  bindingWord
  bindings g true
  semicolon

def namespaceDeclaration (g : Grammar) : Parse Unit := do
  if ← acceptWord "global" then block g
  else
    unless ← acceptWord "namespace" do word "module"
    if ← afterNewline then fail
    if isStringStart (← peek) then stringLiteral
    else
      let _ ← anyWord
      loop do
        if ← acceptSign "." then
          let _ ← anyWord
          return true
        return false
    if ← isChar '\x7b' then block g else semicolon

def anyOf : List (Parse Unit) → Parse Unit
  | [] => fail
  | [p] => p
  | p :: more => either p (anyOf more)

def classAhead : Parse Bool :=
  ahead do
    let _ ← acceptWord "abstract"
    word "class"

def declaration (g : Grammar) (decorators : List Decorator) (exported : Bool) : Parse Unit := do
  if (← classAhead) || (← isChar '@') then classDeclaration g decorators exported
  else
    anyOf [
      functionDeclaration g,
      interfaceDeclaration g decorators exported,
      typeAlias g,
      enumDeclaration g,
      namespaceDeclaration g,
      bindingStatement g]

def ambientDeclaration (g : Grammar) : Parse Unit := do
  word "declare"
  if ← afterNewline then fail
  declaration g [] false

def nameList : Parse Unit := do
  let name : Parse Unit := do
    if isStringStart (← peek) then stringLiteral
    else
      let _ ← anyWord
  char '\x7b'
  listUntil '\x7d' do
    name
    loop do
      if (← word?).isSome || isStringStart (← peek) then
        name
        return true
      return false

def fromModule (g : Grammar) : Parse Unit := do
  stringLiteral
  if (← isAnyWord ["with", "assert"]) && !(← afterNewline) then
    let _ ← anyWord
    g (.expression true true)

def importClause (g : Grammar) : Parse Unit := do
  if isStringStart (← peek) then fromModule g
  else
    let renamed ← attempt do
      let _ ← attempt do
        word "type"
        unless (← word?).isSome do fail
      let _ ← anyWord
      expect "="
      g (.expression true true)
    unless renamed do
      let _ ← attempt do
        word "type"
        if ← isWord "from" then fail
        unless (← word?).isSome || (← isChar '\x7b') || (← isChar '*') do fail
      if (← word?).isSome then
        let _ ← anyWord
        let _ ← acceptSign ","
      if ← isChar '\x7b' then nameList
      else if ← acceptChar '*' then
        word "as"
        let _ ← anyWord
      word "from"
      fromModule g
  semicolon

def importStatement (g : Grammar) : Parse Unit := do
  word "import"
  if (← isChar '(') || (← isChar '.') then fail
  importClause g

def exportedDefault (g : Grammar) (decorators : List Decorator) : Parse Unit := do
  either
    (anyOf [
      classDeclaration g decorators true,
      interfaceDeclaration g decorators true])
    do
      let _ ← Parse.decorators g
      let _ ← acceptWord "abstract"
      if ← isWord "class" then classExpression g
      else if ← attempt (functionHead g) then
        if ← isChar '\x7b' then block g else semicolon
      else expressionStatement g

def exportedNames (g : Grammar) : Parse Unit := do
  let _ ← attempt do
    word "type"
    unless (← isChar '\x7b') || (← isChar '*') do fail
  if ← acceptChar '*' then
    if ← acceptWord "as" then
      let _ ← anyWord
    word "from"
    fromModule g
  else
    nameList
    if ← acceptWord "from" then fromModule g
  semicolon

def exportStatement (g : Grammar) (decorators : List Decorator) : Parse Unit := do
  word "export"
  if ← acceptWord "default" then exportedDefault g decorators
  else if ← acceptSign "=" then expressionStatement g
  else if ← acceptWord "as" then
    word "namespace"
    let _ ← anyWord
    semicolon
  else if ← isWord "import" then importStatement g
  else if (← isChar '\x7b') || (← isChar '*') then exportedNames g
  else anyOf [ambientDeclaration g, declaration g decorators true, exportedNames g]

/-- Decorators belong to the export that they precede, and else to the class, which then begins
    with them. -/
def decoratedStatement (g : Grammar) : Parse Unit :=
  either
    (do
      let found ← decorators g
      exportStatement g found)
    (classDeclaration g [] false)

def parenthesized (g : Grammar) : Parse Unit := do
  char '('
  sequence g true
  char ')'

def conditionalStatement (g : Grammar) : Parse Unit := do
  parenthesized g
  g .statement
  if ← acceptWord "else" then g .statement

def forHead (g : Grammar) : Parse Unit := do
  let ranged : Parse Unit := do
    if ← attempt bindingWord then g .pattern
    else g .operand
    unless ← acceptWord "of" do word "in"
    sequence g true
  let steps : Parse Unit := do
    unless ← isSign ";" do
      if ← attempt bindingWord then bindings g false else sequence g false
    expect ";"
    unless ← isSign ";" do sequence g true
    expect ";"
    unless ← isChar ')' do sequence g true
  char '('
  either ranged steps
  char ')'

def forStatement (g : Grammar) : Parse Unit := do
  let _ ← acceptWord "await"
  forHead g
  g .statement

def doStatement (g : Grammar) : Parse Unit := do
  g .statement
  word "while"
  parenthesized g
  let _ ← acceptSign ";"

def switchStatement (g : Grammar) : Parse Unit := do
  parenthesized g
  char '\x7b'
  loop do
    if ← acceptChar '\x7d' then return false
    if ← acceptWord "case" then
      sequence g true
      expect ":"
    else if ← acceptWord "default" then expect ":"
    else g .statement
    return true

def tryStatement (g : Grammar) : Parse Unit := do
  block g
  if ← acceptWord "catch" then
    if ← acceptChar '(' then
      g .pattern
      let _ ← maybeAnnotated (g .type)
      char ')'
    block g
  if ← acceptWord "finally" then block g

def jump (g : Grammar) : Parse Unit := do
  unless (← afterNewline) || (← isSign ";") || (← isChar '\x7d') || (← atEnd) do sequence g true
  semicolon

def label (g : Grammar) : Parse Unit := do
  valueName
  expect ":"
  g .statement

/-- The word that begins an export; it is a name of its own at the end of its line. -/
def exportBegins : Parse Unit := do
  word "export"
  if ← afterNewline then fail

def wordStatements (g : Grammar) : List (String × Parse Unit) :=
  [("if", conditionalStatement g), ("for", forStatement g), ("do", doStatement g),
    ("while", do parenthesized g; g .statement), ("with", do parenthesized g; g .statement),
    ("switch", switchStatement g), ("try", tryStatement g), ("return", jump g),
    ("throw", jump g), ("break", jump g), ("continue", jump g), ("debugger", semicolon)]

def statement (g : Grammar) : Parse Unit := do
  if ← isChar '\x7b' then block g
  else if ← acceptSign ";" then pure ()
  else if ← isChar '@' then decoratedStatement g
  else if ← ahead exportBegins then exportStatement g []
  else if ← classAhead then classDeclaration g [] false
  else
    let first ← word?
    match (wordStatements g).find? fun entry => some entry.1.toList == first with
    | some (_, p) =>
      let _ ← anyWord
      p
    | none =>
      anyOf [importStatement g, ambientDeclaration g, declaration g [] false, label g,
        expressionStatement g]

end Parse

end TemplateTypes.Source
