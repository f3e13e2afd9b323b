import TemplateTypes.Source.Declaration
import TemplateTypes.Text.Basic

namespace TemplateTypes.Source

open Text

structure Cursor where
  rest : Text
  offset : Nat
  -- Counted from one.
  line : Nat
  -- A line ends between the last token and this one.
  afterNewline : Bool
  -- Where the last token ends.
  lastEnd : Nat
  -- The declarations met so far, the last one first.
  declarations : List Declaration
  -- The type that the expression just read shows, when it is a simple literal.
  literal : Option Text
  -- Elements in angle brackets are expressions.
  elements : Bool
  -- Length of the whole text.
  size : Nat

structure Stuck where
  offset : Nat
  line : Nat

abbrev Parse := StateT Cursor (Except Stuck)

namespace Cursor

/-- Blanks other than control characters beyond the usual ones, and characters without width
    that count as blanks. -/
def isSpace (c : Char) : Bool :=
  (isBlank c && !('\x1c' ≤ c && c ≤ '\x1f')) || c == '\uFEFF' || c == '\u200B' || c == '\u2060'

def endsLine (c : Char) : Bool := c == '\n' || c == '\r' || c == '\u2028' || c == '\u2029'

inductive Gap
  | blank
  | lineComment
  | commentOpens
  | comment
  | commentCloses

/-- The cursor after blanks and comments. The end of a line inside a comment in stars is not one
    between tokens, and a comment that is never closed is none. -/
def pass (cursor : Cursor) (gap : Gap) (offset line : Nat) (newline : Bool) : Text → Cursor
  | [] => { cursor with rest := [], offset, line, afterNewline := newline }
  | c :: rest =>
    let here : Cursor := { cursor with rest := c :: rest, offset, line, afterNewline := newline }
    let ends := c == '\n'
    let line := if ends then line + 1 else line
    match gap with
    | .blank =>
      if isSpace c then pass cursor .blank (offset + 1) line (newline || ends) rest
      else if c == '/' && rest.head? == some '/' then
        pass cursor .lineComment (offset + 1) line newline rest
      else if c == '/' && rest.head? == some '*' && includes (rest.drop 1) ['*', '/'] then
        pass cursor .commentOpens (offset + 1) line newline rest
      else here
    | .lineComment =>
      let gap := if endsLine c then .blank else .lineComment
      pass cursor gap (offset + 1) line (newline || ends) rest
    | .commentOpens => pass cursor .comment (offset + 1) line newline rest
    | .comment =>
      let closes := c == '*' && rest.head? == some '/'
      pass cursor (if closes then .commentCloses else .comment) (offset + 1) line newline rest
    | .commentCloses => pass cursor .blank (offset + 1) line newline rest

/-- The cursor after the next `n` characters, which are not passed over as a gap. -/
def drop (cursor : Cursor) (n : Nat) : Cursor :=
  let taken := cursor.rest.take n
  let offset := cursor.offset + taken.length
  { cursor with
    rest := cursor.rest.drop n, offset, line := cursor.line + taken.count '\n'
    afterNewline := false, lastEnd := offset }

def passGap (cursor : Cursor) : Cursor :=
  pass cursor .blank cursor.offset cursor.line cursor.afterNewline cursor.rest

def start (t : Text) (elements : Bool) : Cursor :=
  passGap ⟨t, 0, 1, false, 0, [], none, elements, t.length⟩

def left (cursor : Cursor) : Nat := cursor.size - cursor.offset

def textSince (cursor earlier : Cursor) : Text :=
  earlier.rest.take (cursor.lastEnd - earlier.offset)

end Cursor

/-- Characters of names; all characters beyond ASCII count that are no blanks. -/
def isWordChar (c : Char) : Bool :=
  c.isAlphanum || c == '_' || c == '$' || (128 ≤ c.toNat && !Cursor.isSpace c)

def isWordStart (c : Char) : Bool := isWordChar c && !c.isDigit

/-- Length of the name at the start of a text, escapes such as `\u0061` included. -/
def wordLength : Text → Nat
  | [] => 0
  | c :: rest =>
    if isWordChar c then wordLength rest + 1
    else if c == '\\' && rest.head? == some 'u' then wordLength rest + 1
    else 0

def wordAt? (t : Text) : Option Text :=
  match t with
  | c :: _ =>
    if isWordStart c || c == '\\' then some (t.take (wordLength t)) else none
  | [] => none

/-- Signs of more than one character, longer ones before those they begin with. -/
def longSigns : List Text :=
  [">>>=", "...", "===", "!==", "**=", "<<=", ">>=", ">>>", "&&=", "||=", "??=", "=>", "==", "!=",
    "<=", ">=", "&&", "||", "??", "?.", "++", "--", "+=", "-=", "*=", "/=", "%=", "&=", "|=", "^=",
    "<<", ">>", "**"].map String.toList

def signAt (t : Text) : Text :=
  match longSigns.find? fun sign => startsWith t sign with
  | some sign => if sign == ['?', '.'] && ((t.drop 2).head?.any Char.isDigit) then ['?'] else sign
  | none => t.take 1

namespace Parse

def stuckAt {α : Type} (cursor : Cursor) : Except Stuck α := .error ⟨cursor.offset, cursor.line⟩

def fail {α : Type} : Parse α := fun cursor => stuckAt cursor

def either {α : Type} (p q : Parse α) : Parse α := fun cursor =>
  match p cursor with
  | .ok result => .ok result
  | .error first =>
    match q cursor with
    | .ok result => .ok result
    | .error second => .error (if second.offset < first.offset then first else second)

def attempt (p : Parse Unit) : Parse Bool := fun cursor =>
  match p cursor with
  | .ok (_, next) => .ok (true, next)
  | .error _ => .ok (false, cursor)

def optional? {α : Type} (p : Parse α) : Parse (Option α) := fun cursor =>
  match p cursor with
  | .ok (a, next) => .ok (some a, next)
  | .error _ => .ok (none, cursor)

def ahead (p : Parse Unit) : Parse Bool := fun cursor =>
  match p cursor with
  | .ok _ => .ok (true, cursor)
  | .error _ => .ok (false, cursor)

def token (n : Nat) : Parse Unit := modify fun cursor => (cursor.drop n).passGap

def peek : Parse (Option Char) := fun cursor => .ok (cursor.rest.head?, cursor)

def word? : Parse (Option Text) := fun cursor => .ok (wordAt? cursor.rest, cursor)

def sign : Parse Text := fun cursor =>
  .ok (if (wordAt? cursor.rest).isSome then [] else signAt cursor.rest, cursor)

def afterNewline : Parse Bool := fun cursor => .ok (cursor.afterNewline, cursor)

def atEnd : Parse Bool := fun cursor => .ok (cursor.rest.isEmpty, cursor)

def isWord (w : String) : Parse Bool := return (← word?) == some w.toList

def isAnyWord (ws : List String) : Parse Bool := do
  match ← word? with
  | some w => return ws.any fun candidate => candidate.toList == w
  | none => return false

def isSign (s : String) : Parse Bool := return (← sign) == s.toList

def isAnySign (ss : List String) : Parse Bool := do
  let found ← sign
  return ss.any fun candidate => candidate.toList == found

def isChar (c : Char) : Parse Bool := return (← peek) == some c

def acceptWord (w : String) : Parse Bool := do
  if ← isWord w then
    token w.length
    return true
  return false

def acceptSign (s : String) : Parse Bool := do
  if ← isSign s then
    token s.length
    return true
  return false

def acceptChar (c : Char) : Parse Bool := do
  if ← isChar c then
    token 1
    return true
  return false

def word (w : String) : Parse Unit := do
  unless ← acceptWord w do fail

def expect (s : String) : Parse Unit := do
  unless ← acceptSign s do fail

def char (c : Char) : Parse Unit := do
  unless ← acceptChar c do fail

def anyWord : Parse Text := do
  match ← word? with
  | some w =>
    token w.length
    return w
  | none => fail

def loopFrom (p : Parse Bool) : (fuel : Nat) → Parse Unit
  | 0 => pure ()
  | fuel + 1 => do
    if ← p then loopFrom p fuel

def loop (p : Parse Bool) : Parse Unit := fun cursor => loopFrom p (cursor.left + 1) cursor

def collectFrom {α : Type} (p : Parse (Option (List α))) : (fuel : Nat) → (done : List (List α)) →
    Parse (List α)
  | 0, done => return done.reverse.flatten
  | fuel + 1, done => do
    match ← p with
    | some found => collectFrom p fuel (found :: done)
    | none => return done.reverse.flatten

def collect {α : Type} (p : Parse (Option (List α))) : Parse (List α) := fun cursor =>
  collectFrom p (cursor.left + 1) [] cursor

def spelled (p : Parse Unit) : Parse Text := fun cursor =>
  match p cursor with
  | .ok (_, next) => .ok (next.textSince cursor, next)
  | .error e => .error e

/-- Items with commas between them up to a closing sign, which is read. A comma may follow the
    last item. -/
def listUntil (closing : Char) (item : Parse Unit) : Parse Unit :=
  loop do
    if ← acceptChar closing then return false
    item
    if ← acceptChar closing then return false
    expect ","
    return true

def setLiteral (literal : Option Text) : Parse Unit :=
  modify fun cursor => { cursor with literal }

def shownLiteral : Parse (Option Text) := fun cursor => .ok (cursor.literal, cursor)

def captured {α : Type} (p : Parse α) : Parse (α × List Declaration) := fun cursor =>
  match p { cursor with declarations := [] } with
  | .ok (a, next) =>
    .ok ((a, next.declarations), { next with declarations := cursor.declarations })
  | .error e => .error e

def declare (declarations : List Declaration) : Parse Unit :=
  modify fun cursor => { cursor with declarations := declarations ++ cursor.declarations }

/-- The end of a statement or member: a semicolon, a closing brace ahead, a new line or the end of
    the text. -/
def semicolon : Parse Unit := do
  if ← acceptSign ";" then return
  if (← isChar '\x7d') || (← afterNewline) || (← atEnd) then return
  fail

end Parse

end TemplateTypes.Source
