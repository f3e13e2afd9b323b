import TemplateTypes.Json.Value
import TemplateTypes.Text.Hex

namespace TemplateTypes.Json

open Text

inductive Problem
  | expectingValue
  | expectingName
  | expectingColon
  | expectingComma
  | unterminatedString
  | controlCharacter
  | invalidEscape
  | invalidUnicodeEscape
  | extraData
  | byteOrderMark
  deriving DecidableEq, Repr

def Problem.message : Problem → Text
  | .expectingValue => "Expecting value".toList
  | .expectingName => "Expecting property name enclosed in double quotes".toList
  | .expectingColon => "Expecting ':' delimiter".toList
  | .expectingComma => "Expecting ',' delimiter".toList
  | .unterminatedString => "Unterminated string starting at".toList
  | .controlCharacter => "Invalid control character at".toList
  | .invalidEscape => "Invalid \\escape".toList
  | .invalidUnicodeEscape => "Invalid \\uXXXX escape".toList
  | .extraData => "Extra data".toList
  | .byteOrderMark => "Unexpected UTF-8 BOM (decode using utf-8-sig)".toList

inductive Container
  | array
  | object
  deriving DecidableEq, Repr

def Container.text : Container → Text
  | .array => "array".toList
  | .object => "object".toList

/-- A problem is placed by how many characters remain from there on. -/
inductive Fault
  | problem (problem : Problem) (remaining : Nat)
  -- A whole number with more digits than are read.
  | tooManyDigits (count : Nat)
  -- A container inside more others than there is room for.
  | tooDeep (container : Container)
  deriving DecidableEq, Repr

abbrev Read (α : Type) := Except Fault (α × Text)

def fail {α : Type} (problem : Problem) (rest : Text) : Read α :=
  .error (.problem problem rest.length)

def isSpace (c : Char) : Bool := c == ' ' || c == '\t' || c == '\n' || c == '\r'

def skipSpace (t : Text) : Text := t.dropWhile isSpace

def unit? : Text → Option (Nat × Text)
  | a :: b :: c :: d :: rest => do
    let a ← hexValue? a
    let b ← hexValue? b
    let c ← hexValue? c
    let d ← hexValue? d
    return (((a * 16 + b) * 16 + c) * 16 + d, rest)
  | _ => none

def isHigh (unit : Nat) : Bool := 0xD800 ≤ unit && unit < 0xDC00

def isLow (unit : Nat) : Bool := 0xDC00 ≤ unit && unit < 0xE000

def unitChar (unit : Nat) : Char := if isHigh unit || isLow unit then '\uFFFD' else Char.ofNat unit

/-- The character of an escape whose `\u` has been read, joined with the second half of a pair
    when one follows. After the digits of a unit at least one more character has to come. -/
def unicodeEscape (t : Text) : Read Char :=
  let bad (rest : Text) : Read Char := .error (.problem .invalidUnicodeEscape (rest.length + 1))
  match unit? t with
  | none => bad t
  | some (_, []) => bad t
  | some (unit, rest) =>
    if isHigh unit then
      match rest with
      | '\\' :: 'u' :: more =>
        if more.length ≤ 4 then .ok (unitChar unit, rest)
        else match unit? more with
          | none => bad more
          | some (second, after) =>
            if isLow second then
              .ok (Char.ofNat (0x10000 + (unit - 0xD800) * 0x400 + (second - 0xDC00)), after)
            else .ok (unitChar unit, rest)
      | _ => .ok (unitChar unit, rest)
    else .ok (unitChar unit, rest)

def plainEscape? : Char → Option Char
  | '\x22' => some doubleQuote
  | '\\' => some '\\'
  | '/' => some '/'
  | 'b' => some '\x08'
  | 'f' => some '\x0c'
  | 'n' => some '\n'
  | 'r' => some '\r'
  | 't' => some '\t'
  | _ => none

/-- The rest of a string whose quote was followed by `start`; at most `fuel` characters and
    escapes are read. -/
def stringRest (start : Nat) : (fuel : Nat) → (done : Text) → Text → Read Text
  | 0, _, rest => fail .unterminatedString rest
  | _ + 1, _, [] => .error (.problem .unterminatedString start)
  | fuel + 1, done, c :: rest =>
    if c == doubleQuote then .ok (done.reverse, rest)
    else if c == '\\' then
      match rest with
      | [] => .error (.problem .unterminatedString start)
      | 'u' :: more =>
        match unicodeEscape more with
        | .ok (char, after) => stringRest start fuel (char :: done) after
        | .error e => .error e
      | e :: more =>
        match plainEscape? e with
        | some char => stringRest start fuel (char :: done) more
        | none => .error (.problem .invalidEscape (rest.length + 1))
    else if c.toNat < 32 then .error (.problem .controlCharacter (rest.length + 1))
    else stringRest start fuel (c :: done) rest

def string (t : Text) : Read Text := stringRest (t.length + 1) (t.length + 1) [] t

def digitsValue (digits : Text) : Nat := digits.foldl (fun n c => n * 10 + (c.toNat - 48)) 0

def maxDigits : Nat := 4300

def exponent? : Text → Option (Int × Text)
  | [] => none
  | e :: rest =>
    if e == 'e' || e == 'E' then
      let (negative, rest) := match rest with
        | '-' :: more => (true, more)
        | '+' :: more => (false, more)
        | _ => (false, rest)
      let digits := rest.takeWhile Char.isDigit
      if digits.isEmpty then none
      else
        let size : Int := digitsValue digits
        some (if negative then -size else size, rest.dropWhile Char.isDigit)
    else none

def fraction? : Text → Option (Text × Text)
  | '.' :: rest =>
    let digits := rest.takeWhile Char.isDigit
    if digits.isEmpty then none else some (digits, rest.dropWhile Char.isDigit)
  | _ => none

def unsigned? (negative : Bool) (t : Text) : Option (Read Json) :=
  let whole := match t with
    | '0' :: _ => ['0']
    | _ => t.takeWhile Char.isDigit
  if whole.isEmpty then none
  else
    let rest := t.drop whole.length
    let (fraction, afterFraction) := (fraction? rest).getD ([], rest)
    let power := exponent? afterFraction
    if fraction.isEmpty && power.isNone then
      if maxDigits < whole.length then some (.error (.tooManyDigits whole.length))
      else
        let value : Int := digitsValue whole
        some (.ok (.int (if negative then -value else value), rest))
    else
      let (size, after) := power.getD (0, afterFraction)
      some (.ok (.float (Double.ofDecimal negative (digitsValue (whole ++ fraction))
        (size - fraction.length)), after))

def scalar (t : Text) : Read Json :=
  let named : List (Text × Json) := [
    ("null".toList, .null), ("true".toList, .bool true), ("false".toList, .bool false),
    ("NaN".toList, .float .nan), ("Infinity".toList, .float (.infinite false)),
    ("-Infinity".toList, .float (.infinite true))]
  match named.findSome? fun (word, value) => (after? word t).map fun rest => (value, rest) with
  | some found => .ok found
  | none =>
    let number := match t with
      | '-' :: rest => unsigned? true rest
      | _ => unsigned? false t
    number.getD (fail .expectingValue t)

mutual

/-- One value at the very start of the text, with at most `levels` containers inside one
    another. -/
def value : (fuel levels : Nat) → Text → Read Json
  | 0, _, t => fail .expectingValue t
  | _ + 1, _, [] => fail .expectingValue []
  | fuel + 1, levels, c :: rest =>
    if c == doubleQuote then
      match string rest with
      | .ok (t, after) => .ok (.str t, after)
      | .error e => .error e
    else if c == '[' then
      match levels with
      | 0 => .error (.tooDeep .array)
      | levels + 1 =>
        match skipSpace rest with
        | ']' :: after => .ok (.arr [], after)
        | inner => items fuel levels [] inner
    else if c == '\x7b' then
      match levels with
      | 0 => .error (.tooDeep .object)
      | levels + 1 =>
        match skipSpace rest with
        | '\x7d' :: after => .ok (.obj [], after)
        | inner => members fuel levels [] inner
    else scalar (c :: rest)

/-- The items of an array from here to its end; `done` holds those before, the last one first. -/
def items : (fuel levels : Nat) → (done : List Json) → Text → Read Json
  | 0, _, _, t => fail .expectingValue t
  | fuel + 1, levels, done, t =>
    match value fuel levels t with
    | .error e => .error e
    | .ok (item, rest) =>
      match skipSpace rest with
      | ']' :: after => .ok (.arr (item :: done).reverse, after)
      | ',' :: more => items fuel levels (item :: done) (skipSpace more)
      | other => fail .expectingComma other

def members : (fuel levels : Nat) → (done : List (Text × Json)) → Text → Read Json
  | 0, _, _, t => fail .expectingName t
  | fuel + 1, levels, done, t =>
    match t with
    | [] => fail .expectingName []
    | c :: afterQuote =>
      if c != doubleQuote then fail .expectingName t
      else match string afterQuote with
        | .error e => .error e
        | .ok (name, rest) =>
          match skipSpace rest with
          | ':' :: beforeValue =>
            match value fuel levels (skipSpace beforeValue) with
            | .error e => .error e
            | .ok (item, rest) =>
              match skipSpace rest with
              | '\x7d' :: after => .ok (ofMembers ((name, item) :: done).reverse, after)
              | ',' :: more => members fuel levels ((name, item) :: done) (skipSpace more)
              | other => fail .expectingComma other
          | other => fail .expectingColon other

end

inductive ReadError
  | malformed (problem : Problem) (line column position : Nat)
  | tooManyDigits (count : Nat)
  | tooDeep (container : Container)
  deriving DecidableEq, Repr

def ReadError.ofFault (t : Text) : Fault → ReadError
  | .tooManyDigits count => .tooManyDigits count
  | .tooDeep container => .tooDeep container
  | .problem problem remaining =>
    let before := t.take (t.length - remaining)
    .malformed problem (before.count '\n' + 1)
      ((before.reverse.takeWhile (· != '\n')).length + 1) before.length

def digitLimitMessage (count : Nat) : Text :=
  "Exceeds the limit (4300 digits) for integer string conversion: value has ".toList ++
    ofNat count ++
    " digits; use sys.set_int_max_str_digits() to increase the limit".toList

def ReadError.message : ReadError → Text
  | .malformed problem line column position =>
    problem.message ++ ": line ".toList ++ ofNat line ++ " column ".toList ++ ofNat column ++
      " (char ".toList ++ ofNat position ++ [')']
  | .tooManyDigits count => digitLimitMessage count
  | .tooDeep container =>
    "maximum recursion depth exceeded while decoding a JSON ".toList ++ container.text ++
      " from a unicode string".toList

/-- Reads a text that holds one value between blanks. There is room for the outermost container and
    for `nesting` more inside one another. -/
def read (nesting : Nat) (t : Text) : Except ReadError Json :=
  match t with
  | '\uFEFF' :: _ => .error (.malformed .byteOrderMark 1 1 0)
  | _ =>
    match value (2 * t.length + 2) (nesting + 1) (skipSpace t) with
    | .error fault => .error (.ofFault t fault)
    | .ok (result, rest) =>
      let after := skipSpace rest
      if after.isEmpty then .ok result
      else .error (.ofFault t (.problem .extraData after.length))

end TemplateTypes.Json
