import TemplateTypes.Source.Statements

namespace TemplateTypes.Source

open Text

namespace Parse

def rule (g : Grammar) : Grammar
  | .statement => statement g
  | .expression inOperator typed => expression g inOperator typed
  | .operand => operand g
  | .type => type g
  | .pattern => pattern g
  | .element => element g

def nested : (depth : Nat) → Grammar
  | 0, _ => fail
  | depth + 1, goal => rule (nested depth) goal

/-- Reads statements up to the end. A token at which none begins is passed over. -/
def statements (g : Grammar) : (fuel : Nat) → Cursor → (fault : Option Nat) → Module
  | 0, cursor, fault => ⟨cursor.declarations.reverse, fault⟩
  | fuel + 1, cursor, fault =>
    match cursor.rest with
    | [] => ⟨cursor.declarations.reverse, fault⟩
    | c :: _ =>
      match g .statement cursor with
      | .ok (_, next) => statements g fuel next fault
      | .error stuck =>
        let width := if isWordStart c then wordLength cursor.rest else 1
        statements g fuel (cursor.drop width).passGap (fault <|> some stuck.line)

end Parse

/-- The line that tells which program runs the file is no part of the source. -/
def Cursor.skipFirstLine (cursor : Cursor) : Cursor :=
  if startsWith cursor.rest "#!".toList then
    (cursor.drop (cursor.rest.takeWhile (· != '\n')).length).passGap
  else cursor

/-- What a source text declares; `elements` admits elements in angle brackets as expressions. -/
def Module.ofText (t : Text) (elements : Bool) : Module :=
  let cursor := (Cursor.start t elements).skipFirstLine
  let depth := cursor.left + 1
  Parse.statements (Parse.nested depth) depth cursor none

end TemplateTypes.Source
