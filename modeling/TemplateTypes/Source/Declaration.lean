import TemplateTypes.Text.Basic

namespace TemplateTypes.Source

/-- A decorator as written, and where in it the callee stands. -/
structure Decorator where
  text : Text
  calleeStart : Nat
  calleeLength : Nat
  deriving DecidableEq, Repr

def Decorator.callee (d : Decorator) : Text := (d.text.drop d.calleeStart).take d.calleeLength

structure Parameter where
  pattern : Text
  type : Option Text
  optional : Bool
  -- Declared with an accessibility word or `readonly`, so that a constructor makes it a member.
  isProperty : Bool
  deriving DecidableEq, Repr

inductive Accessor
  | get
  | set
  deriving DecidableEq, Repr

inductive Member
  -- `literal` is the type that a simple initial value shows.
  | property (name : Text) (type literal : Option Text) (optional : Bool)
  | method (name : Text) (accessor : Option Accessor) (parameters : List Parameter)
      (result : Option Text)
  deriving DecidableEq, Repr

inductive Form
  | classBody
  | interface
  | objectType
  deriving DecidableEq, Repr

structure Declaration where
  form : Form
  name : Text
  decorators : List Decorator
  -- Directly preceded by `export`.
  exported : Bool
  members : List Member
  deriving DecidableEq, Repr

/-- The declarations of a file in the order in which they begin, and the line, counted from one,
    on which it first breaks the grammar. -/
structure Module where
  declarations : List Declaration
  faultLine : Option Nat
  deriving DecidableEq, Repr

end TemplateTypes.Source
