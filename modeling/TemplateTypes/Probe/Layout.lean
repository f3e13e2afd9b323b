import TemplateTypes.Text.Basic

namespace TemplateTypes

open Text

inductive BindingKind
  | input
  | output
  | model
  deriving DecidableEq, Repr

structure Binding where
  name : Text
  expression : Text
  kind : BindingKind
  deriving DecidableEq, Repr

namespace Probe

def opening (b : Binding) : Text :=
  match b.kind with
  | .output => "  <button (".toList ++ b.name ++ ")=\"".toList
  | .model => "  <input [(".toList ++ b.name ++ ")]=\"".toList
  | .input => "  <span [".toList ++ b.name ++ "]=\"".toList

def closing (b : Binding) : Text :=
  match b.kind with
  | .output => "\">Button</button>".toList
  | .model => "\" />".toList
  | .input => "\">Text</span>".toList

def line (b : Binding) : Text := opening b ++ b.expression ++ closing b

def template (bindings : List Binding) : Text :=
  join ['\n'] (["<div>".toList] ++ bindings.map line ++ ["</div>".toList])

def valueStartsFrom (offset : Nat) : List Binding → List Nat
  | [] => []
  | b :: more =>
    (offset + (opening b).length) :: valueStartsFrom (offset + (line b).length + 1) more

def valueStarts (bindings : List Binding) : List Nat := valueStartsFrom 6 bindings

end Probe

end TemplateTypes
