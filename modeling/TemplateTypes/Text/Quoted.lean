import TemplateTypes.Text.Hex
import TemplateTypes.Text.Letter
import TemplateTypes.Text.UnprintableTable

namespace TemplateTypes.Text

def isPrintable (c : Char) : Bool :=
  if c.toNat < 128 then 32 ≤ c.toNat && c.toNat < 127 else !inRanges unprintableRanges c.toNat

def quotedChar (quote c : Char) : Text :=
  if c == quote || c == '\\' then ['\\', c]
  else if c == '\n' then ['\\', 'n']
  else if c == '\r' then ['\\', 'r']
  else if c == '\t' then ['\\', 't']
  else if isPrintable c then [c]
  else if c.toNat < 0x100 then '\\' :: 'x' :: hex 2 c.toNat
  else if c.toNat < 0x10000 then '\\' :: 'u' :: hex 4 c.toNat
  else '\\' :: 'U' :: hex 8 c.toNat

def quoteFor (t : Text) : Char :=
  if List.elem singleQuote t && !List.elem doubleQuote t then doubleQuote else singleQuote

def quoted (t : Text) : Text :=
  quoteFor t :: (t.flatMap (quotedChar (quoteFor t)) ++ [quoteFor t])

end TemplateTypes.Text
