import TemplateTypes.Text.Utf8

namespace TemplateTypes

open Text

/-- The root is empty for a relative path, and one slash or exactly two for an absolute one. -/
structure Path where
  root : Text
  steps : List Text
  deriving DecidableEq, Repr

namespace Path

def up : Text := ['.', '.']

def rootOf : Text → Text
  | '/' :: '/' :: '/' :: _ => ['/']
  | '/' :: '/' :: _ => ['/', '/']
  | '/' :: _ => ['/']
  | _ => []

def stepsOf (t : Text) : List Text := (pieces '/' t).filter fun s => !s.isEmpty && s != ['.']

def ofText (t : Text) : Path := ⟨rootOf t, stepsOf t⟩

def isAbsolute (p : Path) : Bool := !p.root.isEmpty

def toText (p : Path) : Text :=
  if p.root.isEmpty && p.steps.isEmpty then ['.'] else p.root ++ join ['/'] p.steps

def name (p : Path) : Text := p.steps.getLast?.getD []

def parent (p : Path) : Path := ⟨p.root, p.steps.dropLast⟩

def append (p q : Path) : Path := if q.isAbsolute then q else ⟨p.root, p.steps ++ q.steps⟩

instance : HDiv Path Path Path := ⟨append⟩

def child (p : Path) (step : Text) : Path := ⟨p.root, p.steps ++ [step]⟩

def pushStep (absolute : Bool) (done : List Text) (step : Text) : List Text :=
  if step == up then
    match done with
    | [] => if absolute then [] else [up]
    | last :: more => if last == up then up :: done else more
  else step :: done

def flatten (p : Path) : Path := ⟨p.root, (p.steps.foldl (pushStep p.isAbsolute) []).reverse⟩

def absolute (base p : Path) : Path := flatten (base / p)

/-- Two path texts written one after the other, the second alone when it is absolute. -/
def joinText (a b : Text) : Text :=
  if startsWith b ['/'] then b
  else if a.isEmpty || endsWith a ['/'] then a ++ b
  else a ++ '/' :: b

def dropCommon : (start target : List Text) → List Text × List Text
  | a :: as, b :: bs => if a == b then dropCommon as bs else (a :: as, b :: bs)
  | as, bs => (as, bs)

def relative (target start : Path) : Text :=
  let (climb, descend) := dropCommon start.steps target.steps
  toText ⟨[], climb.map (fun _ => up) ++ descend⟩

inductive NameError
  | noName (p : Path)
  | invalid (name : Text)
  deriving DecidableEq, Repr

def NameError.message : NameError → Text
  | .noName p => "PosixPath(".toList ++ quoted p.toText ++ ") has an empty name".toList
  | .invalid name => "Invalid name ".toList ++ quoted name

def withName (p : Path) (name : Text) : Except NameError Path :=
  if p.name.isEmpty then .error (.noName p)
  else if ofText name = ⟨[], [name]⟩ then .ok ⟨p.root, p.steps.dropLast ++ [name]⟩
  else .error (.invalid name)

end Path

end TemplateTypes
