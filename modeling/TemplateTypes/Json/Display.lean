import TemplateTypes.Json.Value
import TemplateTypes.Text.Quoted

namespace TemplateTypes.Json

open Text

def doubleDisplay : Double → Text
  | .finite negative digits exponent => Double.finiteText negative digits exponent
  | .infinite false => "inf".toList
  | .infinite true => "-inf".toList
  | .nan => "nan".toList

mutual

def displayInside : Json → Text
  | .null => "None".toList
  | .bool true => "True".toList
  | .bool false => "False".toList
  | .int n => ofInt n
  | .float x => doubleDisplay x
  | .str t => quoted t
  | .arr items => '[' :: (displayItems items ++ [']'])
  | .obj members => '\x7b' :: (displayMembers members ++ ['\x7d'])

def displayItems : List Json → Text
  | [] => []
  | [item] => displayInside item
  | item :: more => displayInside item ++ ", ".toList ++ displayItems more

def displayMembers : List (Text × Json) → Text
  | [] => []
  | [(name, value)] => quoted name ++ ": ".toList ++ displayInside value
  | (name, value) :: more =>
    quoted name ++ ": ".toList ++ displayInside value ++ ", ".toList ++ displayMembers more

end

def display : Json → Text
  | .str t => t
  | value => displayInside value

def kindName : Json → Text
  | .null => "NoneType".toList
  | .bool _ => "bool".toList
  | .int _ => "int".toList
  | .float _ => "float".toList
  | .str _ => "str".toList
  | .arr _ => "list".toList
  | .obj _ => "dict".toList

end TemplateTypes.Json
