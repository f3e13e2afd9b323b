import TemplateTypes.Source.Types

namespace TemplateTypes.Source

open Text

namespace Parse

def declaring (p : Parse Declaration) : Parse Unit := do
  let (declaration, inner) ← captured p
  declare (inner ++ [declaration])

def memberModifiers : List String :=
  ["declare", "public", "private", "protected", "static", "override", "readonly", "abstract",
    "async", "accessor", "get", "set"]

/-- A member of a class; blocks that run once and signatures without a name are none. -/
def classMember (g : Grammar) : Parse (List Member) := do
  let _ ← decorators g
  let runsOnce ← attempt do
    word "static"
    unless ← isChar '\x7b' do fail
  if runsOnce then
    block g
    return []
  let accessor ← modifiers memberModifiers true
  let _ ← acceptChar '*'
  if ← isChar '[' then
    if ← attempt (indexSignature g) then
      memberEnd
      return []
  let name ← spelled (propertyName g)
  let isOptional ← acceptSign "?"
  let _ ← acceptSign "!"
  if (← isChar '(') || (← isChar '<') then
    let (found, result) ← callSignature g
    if ← isChar '\x7b' then block g else memberEnd
    return [.method name accessor found result]
  let type ← maybeAnnotated (g .type)
  setLiteral none
  if ← acceptSign "=" then g (.expression true true)
  let literal ← shownLiteral
  memberEnd
  return [.property name type literal isOptional]

def classBody (g : Grammar) : Parse (List Member) := do
  char '\x7b'
  collect do
    if ← acceptChar '\x7d' then return none
    if ← acceptSign ";" then return some []
    if ← atEnd then fail
    return some (← classMember g)

def heritage (g : Grammar) : Parse Unit := do
  maybeTypeParameters g
  if ← acceptWord "extends" then
    g .operand
    if ← isChar '<' then typeArguments g
  if ← acceptWord "implements" then
    loop do
      g .type
      acceptSign ","

def classTail (g : Grammar) : Parse (List Member) := do
  heritage g
  classBody g

/-- A name for what follows, which is missing where `extends`, `implements` or a bracket stands. -/
def maybeName : Parse (Option Text) := do
  if (← word?).isSome && !(← isAnyWord ["extends", "implements"]) then
    return some (← anyWord)
  return none

def classExpression (g : Grammar) : Parse Unit := do
  word "class"
  let _ ← maybeName
  let _ ← classTail g

def classDeclaration (g : Grammar) (decorators : List Decorator) (exported : Bool) : Parse Unit :=
  declaring do
    let own ← Parse.decorators g
    let _ ← acceptWord "abstract"
    word "class"
    let name ← anyWord
    let members ← classTail g
    return ⟨.classBody, name, decorators ++ own, exported, members⟩

def interfaceDeclaration (g : Grammar) (decorators : List Decorator) (exported : Bool) :
    Parse Unit :=
  declaring do
    word "interface"
    let name ← anyWord
    maybeTypeParameters g
    if ← acceptWord "extends" then
      loop do
        g .type
        acceptSign ","
    let members ← objectType g
    return ⟨.interface, name, decorators, exported, members⟩

def aliasEnds : Parse Unit := do
  if (← isAnySign ["|", "&"]) || (← isWord "extends") then fail
  if (← isChar '[') && !(← afterNewline) then fail

def typeAlias (g : Grammar) : Parse Unit := do
  word "type"
  if ← afterNewline then fail
  let name ← anyWord
  maybeTypeParameters g
  expect "="
  let members ← optional? do
    let found ← objectType g
    aliasEnds
    return found
  match members with
  | some members => declare [⟨.objectType, name, [], false, members⟩]
  | none => g .type
  semicolon

end Parse

end TemplateTypes.Source
