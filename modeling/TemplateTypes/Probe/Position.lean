import TemplateTypes.Probe.Escape

namespace TemplateTypes

structure Position where
  line : Nat
  column : Int
  deriving DecidableEq, Repr

namespace Position

def origin : Position := ⟨0, 0⟩

def isUnknown (p : Position) : Bool := p == origin

def lastLineLength (t : Text) : Nat := (t.reverse.takeWhile (· != '\n')).length

def ofOffset (t : Text) (offset : Int) : Position :=
  let before := t.before offset
  ⟨before.count '\n', offset - (before.length - lastLineLength before : Nat)⟩

end Position

def locateExpression (expression template : Text) : Position :=
  if expression.isEmpty then .origin
  else match Text.find? expression template with
    | none => .origin
    | some i => .ofOffset template i

end TemplateTypes
