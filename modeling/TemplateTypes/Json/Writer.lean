import TemplateTypes.Json.Value
import TemplateTypes.Text.Quoted

namespace TemplateTypes.Json

open Text

def unitEscape (unit : Nat) : Text := '\\' :: 'u' :: hex 4 unit

def charText (c : Char) : Text :=
  let n := c.toNat
  if c == doubleQuote || c == '\\' then ['\\', c]
  else if c == '\n' then ['\\', 'n']
  else if c == '\r' then ['\\', 'r']
  else if c == '\t' then ['\\', 't']
  else if n = 0x0C then ['\\', 'f']
  else if n = 0x08 then ['\\', 'b']
  else if 32 ≤ n && n < 127 then [c]
  else if n < 0x10000 then unitEscape n
  else
    unitEscape (0xD800 + (n - 0x10000) / 0x400) ++ unitEscape (0xDC00 + (n - 0x10000) % 0x400)

def stringText (t : Text) : Text := doubleQuote :: (t.flatMap charText ++ [doubleQuote])

def doubleText : Double → Text
  | .finite negative digits exponent => Double.finiteText negative digits exponent
  | .infinite false => "Infinity".toList
  | .infinite true => "-Infinity".toList
  | .nan => "NaN".toList

mutual

def write : Json → Text
  | .null => "null".toList
  | .bool true => "true".toList
  | .bool false => "false".toList
  | .int n => ofInt n
  | .float x => doubleText x
  | .str t => stringText t
  | .arr items => '[' :: (writeItems items ++ [']'])
  | .obj members => '\x7b' :: (writeMembers members ++ ['\x7d'])

def writeItems : List Json → Text
  | [] => []
  | [item] => write item
  | item :: more => write item ++ ", ".toList ++ writeItems more

def writeMembers : List (Text × Json) → Text
  | [] => []
  | [(name, value)] => stringText name ++ ": ".toList ++ write value
  | (name, value) :: more =>
    stringText name ++ ": ".toList ++ write value ++ ", ".toList ++ writeMembers more

end

end TemplateTypes.Json
