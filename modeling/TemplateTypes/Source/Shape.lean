import TemplateTypes.Source.Declaration

namespace TemplateTypes

open Text Source

inductive MemberKind
  | property
  | method
  deriving DecidableEq, Repr

structure MemberInfo where
  name : Text
  kind : MemberKind
  type : Option Text
  parameters : List Text
  optional : Bool
  deriving DecidableEq, Repr

structure TypeShape where
  name : Text
  members : List MemberInfo
  isComponent : Bool
  isExported : Bool
  deriving DecidableEq, Repr

namespace TypeShape

def member? (shape : TypeShape) (name : Text) : Option MemberInfo :=
  shape.members.find? (·.name == name)

def setMember (info : MemberInfo) : List MemberInfo → List MemberInfo
  | [] => [info]
  | m :: more => if m.name == info.name then info :: more else m :: setMember info more

def constructorName : Text := "constructor".toList

def parameterText (p : Parameter) : Text :=
  let name := p.pattern ++ (if p.optional then ['?'] else [])
  match p.type with
  | some (c :: type) => name ++ ": ".toList ++ c :: type
  | _ => name

def ofParameter (p : Parameter) : MemberInfo := ⟨p.pattern, .property, p.type, [], p.optional⟩

/-- The members after one more declared member. A constructor adds its parameter properties, a
    getter counts as a property and a setter not at all. -/
def addMember (done : List MemberInfo) : Member → List MemberInfo
  | .property name type literal optional =>
    setMember ⟨name, .property, type <|> literal, [], optional⟩ done
  | .method name accessor parameters result =>
    if name == constructorName then
      (parameters.filter (·.isProperty)).foldl (fun done p => setMember (ofParameter p) done) done
    else match accessor with
      | some .get => setMember ⟨name, .property, result, [], false⟩ done
      | some .set => done
      | none => setMember ⟨name, .method, result, parameters.map parameterText, false⟩ done

end TypeShape

namespace Source

def Declaration.isComponent (d : Declaration) : Bool :=
  d.decorators.any fun decorator => includes decorator.text "Component".toList

def Declaration.shape (d : Declaration) : TypeShape :=
  let members := d.members.foldl TypeShape.addMember []
  match d.form with
  | .objectType => ⟨d.name, members, false, false⟩
  | _ => ⟨d.name, members, d.isComponent, d.exported⟩

def setShape (shape : TypeShape) : List TypeShape → List TypeShape
  | [] => [shape]
  | s :: more => if s.name == shape.name then shape :: more else s :: setShape shape more

def shapes (declarations : List Declaration) : List TypeShape :=
  declarations.foldl (fun done d => setShape d.shape done) []

def classes (declarations : List Declaration) : List Declaration :=
  declarations.filter (·.form == .classBody)

/-- The class of a file's component: the first one that a decorator marks, else the first
    exported one, else the first one. -/
def componentClass? (declarations : List Declaration) : Option Text :=
  let found := classes declarations
  ((found.find? (·.isComponent)) <|> (found.find? (·.exported)) <|> found.head?).map (·.name)

end Source

end TemplateTypes
