import TemplateTypes.Source.Classes

namespace TemplateTypes.Source

open Text

namespace Parse

def offset : Parse Nat := fun cursor => .ok (cursor.offset, cursor)

def sparseList (item : Parse Unit) : Parse Unit := do
  char '['
  loop do
    if ← acceptChar ']' then return false
    if ← acceptSign "," then return true
    item
    unless ← isChar ']' do expect ","
    return true

def maybeDefault (g : Grammar) : Parse Unit := do
  if ← acceptSign "=" then g (.expression true true)

def pattern (g : Grammar) : Parse Unit := do
  if ← acceptChar '\x7b' then
    listUntil '\x7d' do
      if ← acceptSign "..." then g .pattern
      else
        propertyName g
        if ← acceptSign ":" then g .pattern
        maybeDefault g
  else if ← isChar '[' then
    sparseList do
      let _ ← acceptSign "..."
      g .pattern
      maybeDefault g
  else
    let _ ← anyWord

def isElementNameChar (c : Char) : Bool := isWordChar c || c == '-' || c == ':' || c == '.'

def elementName : Parse Unit := do
  token ((← rest).takeWhile isElementNameChar).length

def elementAttribute (g : Grammar) : Parse Unit := do
  if ← acceptChar '\x7b' then
    expect "..."
    g (.expression true true)
    char '\x7d'
  else
    unless (← peek).any isElementNameChar do fail
    elementName
    if ← acceptChar '=' then
      let t ← rest
      match t with
      | c :: more =>
        if isStringStart (some c) then
          unless more.contains c do fail
          token ((more.takeWhile (· != c)).length + 2)
        else if ← acceptChar '\x7b' then
          g (.expression true true)
          char '\x7d'
        else g .element
      | [] => fail

/-- An element with the text and the elements in it. What follows its last sign is not passed
    over, since it may be text. -/
def element (g : Grammar) : Parse Unit := do
  char '<'
  elementName
  if ← isChar '<' then typeArguments g
  loop do
    if (← isChar '>') || (← isChar '/') then return false
    elementAttribute g
    return true
  if ← acceptChar '/' then
    unless ← isChar '>' do fail
    raw 1
  else
    raw 1
    loop do
      raw ((← rest).takeWhile fun c => c != '<' && c != '\x7b').length
      let t ← rest
      if startsWith t "</".toList then return false
      if t.head? == some '<' then g .element
      else
        char '\x7b'
        let _ ← acceptSign "..."
        unless ← isChar '\x7d' do g (.expression true true)
        unless ← isChar '\x7d' do fail
        raw 1
      return true
    char '<'
    char '/'
    elementName
    unless ← isChar '>' do fail
    raw 1

def reservedWords : List String :=
  ["break", "case", "catch", "class", "const", "continue", "debugger", "default", "do", "else",
    "enum", "extends", "finally", "for", "function", "if", "import", "in", "instanceof",
    "new", "return", "switch", "throw", "try", "typeof", "var", "void", "while", "with"]

def valueName : Parse Unit := do
  if ← isAnyWord reservedWords then fail
  let _ ← anyWord

def arrowHead (g : Grammar) (typed : Bool) : Parse Unit := do
  let _ ← attempt do
    word "async"
    if ← afterNewline then fail
    unless (← word?).isSome || (← isChar '(') || (← isChar '<') do fail
  if (← isChar '(') || (← isChar '<') then
    maybeTypeParameters g
    let _ ← parameters g
    if typed then
      let _ ← maybeAnnotated (resultType g)
  else valueName
  if ← afterNewline then fail
  expect "=>"

def functionHead (g : Grammar) : Parse Unit := do
  let _ ← acceptWord "async"
  word "function"
  let _ ← acceptChar '*'
  let _ ← maybeName
  let _ ← callSignature g

def objectItem (g : Grammar) : Parse Unit := do
  if ← acceptSign "..." then g (.expression true true)
  else
    let _ ← modifiers ["async", "get", "set"] false
    let _ ← acceptChar '*'
    propertyName g
    if (← isChar '(') || (← isChar '<') then
      let _ ← callSignature g
      block g
    else if ← acceptSign ":" then g (.expression true true)
    else maybeDefault g

/-- Type arguments that something other than an operand follows, so that their brackets are no
    comparisons. -/
def argumentsOfType (g : Grammar) : Parse Unit := do
  typeArguments g
  let c ← peek
  let closes := [')', ']', '\x7d', ',', ';', ':', '.', '(', backtick].any fun sign => c == some sign
  unless closes || (← afterNewline) || (← atEnd) || (← isAnySign ["?.", "=", "==", "==="]) do fail

def suffix (g : Grammar) : Parse Bool := do
  if ← acceptSign "." then
    memberName
    return true
  if ← acceptSign "?." then
    let c ← peek
    unless [some '(', some '[', some '<', some backtick].contains c do memberName
    return true
  if ← acceptChar '[' then
    sequence g true
    char ']'
    return true
  if ← isChar '(' then
    arguments g
    return true
  if ← isChar backtick then
    templateLiteral (sequence g true)
    return true
  if (← isAnySign ["!", "++", "--"]) && !(← afterNewline) then
    token (← sign).length
    return true
  if ← isChar '<' then return ← attempt (argumentsOfType g)
  return false

def construction (g : Grammar) (first : Parse Unit) : Parse Unit := do
  word "new"
  if ← acceptSign "." then
    word "target"
    setLiteral none
  else
    let made ← spelled do
      first
      loop do
        if ← acceptSign "." then
          memberName
          return true
        if ← acceptChar '[' then
          sequence g true
          char ']'
          return true
        return false
    let _ ← attempt (argumentsOfType g)
    if ← isChar '(' then arguments g
    setLiteral (some made)

def wordOperand (g : Grammar) : Parse Unit := do
  if (← isWord "true") || (← isWord "false") then
    let _ ← anyWord
    setLiteral (some "boolean".toList)
  else
    if ← isWord "class" then classExpression g
    else if ← attempt (functionHead g) then block g
    else if ← acceptWord "import" then
      unless (← isChar '(') || (← isChar '.') do fail
    else valueName
    setLiteral none

def simpleOperand (g : Grammar) : Parse Unit := do
  let t ← rest
  let c := t.head?
  if isStringStart c then
    stringLiteral
    setLiteral (some "string".toList)
  else if isNumberStart t then
    number
    setLiteral (some "number".toList)
  else if c == some backtick then
    templateLiteral (sequence g true)
    setLiteral (some "string".toList)
  else if (wordAt? t).isSome then wordOperand g
  else
    if ← acceptChar '(' then
      sequence g true
      char ')'
    else if c == some '[' then
      sparseList do
        let _ ← acceptSign "..."
        g (.expression true true)
    else if ← acceptChar '\x7b' then listUntil '\x7d' (objectItem g)
    else if c == some '/' then slashed
    else if c == some '@' then
      let _ ← decorators g
      classExpression g
    else if c == some '#' then memberName
    else if c == some '<' && (← get).elements then
      g .element
      token 0
    else fail
    setLiteral none

def operand (g : Grammar) : Parse Unit := do
  if ← isWord "new" then construction g (simpleOperand g) else simpleOperand g
  loop do
    if ← suffix g then
      setLiteral none
      return true
    return false

def wordOperators : List String := ["typeof", "void", "delete", "await"]

def signOperators : List String := ["!", "~", "+", "-", "++", "--"]

def prefixed (g : Grammar) : Parse Unit := do
  let start ← offset
  loop do
    if ← isAnyWord wordOperators then
      let _ ← anyWord
      return true
    if ← isAnySign signOperators then
      token (← sign).length
      return true
    if (← isChar '<') && !(← get).elements then
      typeArguments g
      return true
    return false
  let plain := (← offset) == start
  operand g
  unless plain do setLiteral none

def betweenOperators : List String :=
  ["||", "&&", "??", "|", "^", "&", "==", "!=", "===", "!==", "<", ">", "<=", ">=", "<<", ">>",
    ">>>", "+", "-", "*", "/", "%", "**"]

def assignmentSigns : List String :=
  ["=", "+=", "-=", "*=", "/=", "%=", "**=", "<<=", ">>=", ">>>=", "&=", "|=", "^=", "&&=", "||=",
    "??="]

def operation (g : Grammar) (inOperator : Bool) : Parse Bool := do
  if ← isAnySign betweenOperators then
    token (← sign).length
    prefixed g
    return true
  if (← isWord "instanceof") || (inOperator && (← isWord "in")) then
    let _ ← anyWord
    prefixed g
    return true
  if (← isAnyWord ["as", "satisfies"]) && !(← afterNewline) then
    let _ ← anyWord
    unless ← acceptWord "const" do g .type
    return true
  return false

/-- The two branches after a question mark. A colon in the first one belongs to an arrow function
    only when another one follows for the second branch. -/
def branches (g : Grammar) (inOperator typed : Bool) : Parse Unit := do
  let consequent (typed : Bool) : Parse Unit := do
    g (.expression true typed)
    expect ":"
  either (consequent true) (consequent false)
  g (.expression inOperator typed)

/-- What may follow the word that hands out a value: nothing, or an expression. -/
def yielded (g : Grammar) (inOperator typed : Bool) : Parse Unit := do
  word "yield"
  let _ ← acceptChar '*'
  unless ← afterNewline do
    let _ ← attempt (g (.expression inOperator typed))

def expression (g : Grammar) (inOperator typed : Bool) : Parse Unit := do
  if ← attempt (arrowHead g typed) then
    if ← isChar '\x7b' then block g else g (.expression inOperator typed)
    setLiteral none
  else if ← isWord "yield" then
    yielded g inOperator typed
    setLiteral none
  else
    prefixed g
    loop do
      if ← operation g inOperator then
        setLiteral none
        return true
      return false
    if ← acceptSign "?" then
      branches g inOperator typed
      setLiteral none
    else if ← isAnySign assignmentSigns then
      token (← sign).length
      g (.expression inOperator typed)
      setLiteral none

end Parse

end TemplateTypes.Source
