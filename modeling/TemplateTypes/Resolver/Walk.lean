import TemplateTypes.Resolver.Chain
import TemplateTypes.Source.Shape
import TemplateTypes.TypeText.Structure

namespace TemplateTypes

open Text TypeText

namespace Walk

/-- Where a walk has come to: the type reached, the name of the shape that declares the last
    member, that member unless it has been used up by a call or a subscript, its name, and the
    signature so far. -/
structure State where
  type : Option Text
  owner : Text
  member : Option MemberInfo
  name : Text
  signature : Option Text

def start (owner : Text) : State := ⟨some owner, owner, none, [], none⟩

def render (owner : Text) (m : MemberInfo) : Text :=
  let type := match m.type with
    | some (c :: rest) => c :: rest
    | _ => TypeText.any
  match m.kind with
  | .method =>
    "(method) ".toList ++ owner ++ '.' :: m.name ++ '(' :: join ", ".toList m.parameters ++
      "): ".toList ++ type
  | .property =>
    "(property) ".toList ++ owner ++ '.' :: m.name ++ (if m.optional then ['?'] else []) ++
      ": ".toList ++ type

def propertyText (name type : Text) : Text := "(property) ".toList ++ name ++ ": ".toList ++ type

def lengthName : Text := "length".toList

def lengthMember : MemberInfo := ⟨lengthName, .property, some "number".toList, [], false⟩

/-- The member of a type, with the name of the shape that declares it; `length` belongs to arrays
    and strings. -/
def lookup (shapes : List TypeShape) (owner type name : Text) : Option (Text × MemberInfo) :=
  let base := bare type
  if name == lengthName && ((elementType? base).isSome || base == "string".toList) then
    some (owner, lengthMember)
  else
    match shapes.find? (·.name == genericName base) with
    | none => none
    | some shape => (shape.member? name).map fun m => (shape.name, m)

def step (shapes : List TypeShape) (s : State) : ChainStep → Except CallError (Option State)
  | .member name =>
    match s.type with
    | none => .ok none
    | some type =>
      match lookup shapes s.owner type name with
      | none => .ok none
      | some (owner, m) => .ok (some ⟨m.type, owner, some m, name, some (render owner m)⟩)
  | .index _ =>
    match s.type.bind elementType? with
    | none => .ok none
    | some type =>
      .ok (some { s with type := some type, member := none,
                         signature := some (propertyText s.name type) })
  | .call _ =>
    match s.member with
    | some ⟨_, .method, result, _, _⟩ => .ok (some { s with type := result, member := none })
    | _ =>
      match s.type with
      | none => .ok none
      | some type =>
        match callResult type with
        | .error e => .error e
        | .ok none => .ok none
        | .ok (some result) =>
          .ok (some { s with type := some result, member := none,
                             signature := some (propertyText s.name result) })

def steps (shapes : List TypeShape) (s : State) :
    List ChainStep → Except CallError (Option Text)
  | [] => .ok s.signature
  | first :: more =>
    match step shapes s first with
    | .error e => .error e
    | .ok none => .ok none
    | .ok (some next) => steps shapes next more

end Walk

def walkChain (shapes : List TypeShape) (owner : Text) (chain : List ChainStep) :
    Except CallError (Option Text) :=
  Walk.steps shapes (Walk.start owner) chain

/-- The signature of an expression seen from a class: what stands before the first pipe, a
    negation being a truth value. -/
def describeExpression (shapes : List TypeShape) (owner : Text) (expression : Text) :
    Except CallError (Option Text) :=
  match splitTop '|' expression with
  | [] => .ok none
  | main :: _ =>
    match Chain.ofExpression? (main.dropWhile (· == '!')) with
    | none => .ok none
    | some chain =>
      if startsWith main ['!'] then
        let names := chain.filterMap fun
          | .member name => some name
          | _ => none
        .ok (some (Walk.propertyText (names.getLast?.getD []) "boolean".toList))
      else walkChain shapes owner chain

end TemplateTypes
