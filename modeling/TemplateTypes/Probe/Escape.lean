import TemplateTypes.Text.Basic

namespace TemplateTypes

open Text

def escapeTemplate : Text → Text
  | [] => []
  | '\\' :: rest => '\\' :: '\\' :: escapeTemplate rest
  | '\x60' :: rest => '\\' :: '\x60' :: escapeTemplate rest
  | '$' :: '\x7b' :: rest => '\\' :: '$' :: '\x7b' :: escapeTemplate rest
  | c :: rest => c :: escapeTemplate rest

def Text.before (t : Text) : Int → Text
  | .ofNat n => t.take n
  | .negSucc n => t.take (t.length - (n + 1))

def escapedOffset (t : Text) (offset : Int) : Nat := (escapeTemplate (t.before offset)).length

end TemplateTypes
