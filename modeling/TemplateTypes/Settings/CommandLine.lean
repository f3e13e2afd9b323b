import TemplateTypes.Text.Basic

namespace TemplateTypes

open Text

inductive CommandLineError
  | noClosingQuotation
  | noEscapedCharacter
  deriving DecidableEq, Repr

def CommandLineError.message : CommandLineError → Text
  | .noClosingQuotation => "No closing quotation".toList
  | .noEscapedCharacter => "No escaped character".toList

namespace CommandLine

inductive State
  | between
  | word
  | quoted (quote : Char)
  | escaped
  | escapedInQuotes
  deriving DecidableEq, Repr

def isSeparator (c : Char) : Bool := c == ' ' || c == '\t' || c == '\r' || c == '\n'

def wordsFrom (state : State) (word : Text) : Text → Except CommandLineError (List Text)
  | [] =>
    match state with
    | .between => .ok []
    | .word => .ok [word.reverse]
    | .quoted _ => .error .noClosingQuotation
    | .escaped => .error .noEscapedCharacter
    | .escapedInQuotes => .error .noEscapedCharacter
  | c :: rest =>
    match state with
    | .escaped => wordsFrom .word (c :: word) rest
    | .escapedInQuotes =>
      wordsFrom (.quoted doubleQuote)
        (if c == '\\' || c == doubleQuote then c :: word else c :: '\\' :: word) rest
    | .quoted quote =>
      if c == quote then wordsFrom .word word rest
      else if c == '\\' && quote == doubleQuote then wordsFrom .escapedInQuotes word rest
      else wordsFrom (.quoted quote) (c :: word) rest
    | _ =>
      if isSeparator c then
        if state == .word then
          match wordsFrom .between [] rest with
          | .ok more => .ok (word.reverse :: more)
          | .error e => .error e
        else wordsFrom .between [] rest
      else if c == '\\' then wordsFrom .escaped word rest
      else if c == singleQuote || c == doubleQuote then wordsFrom (.quoted c) word rest
      else wordsFrom .word (c :: word) rest

def words (line : Text) : Except CommandLineError (List Text) := wordsFrom .between [] line

end CommandLine

end TemplateTypes
