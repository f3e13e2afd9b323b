import TemplateTypes.Json.Reader
import TemplateTypes.Json.Writer
import TemplateTypes.Text.Utf8
import TemplateTypes.Text.WholeNumber

namespace TemplateTypes

open Text

inductive FrameError
  | missingLength
  | invalidLength (cause : NumberError)
  | negativeLength
  -- No end of the header within the limit.
  | unendingHeader
  -- The header ends, but beyond the limit.
  | longHeader
  | invalidText (cause : Utf8.Fault)
  | invalidJson (cause : Json.ReadError)
  deriving DecidableEq, Repr

def FrameError.message : FrameError → Text
  | .missingLength => "Language server message without Content-Length header".toList
  | .invalidLength cause => cause.message
  | .negativeLength => "readexactly size can not be less than zero".toList
  | .unendingHeader => "Separator is not found, and chunk exceed the limit".toList
  | .longHeader => "Separator is found, but chunk is longer than limit".toList
  | .invalidText cause => cause.message
  | .invalidJson cause => cause.message

namespace Frame

def encode (payload : Json) : Bytes :=
  let body := Utf8.encode payload.write
  Utf8.encode ("Content-Length: ".toList ++ ofNat body.length ++ "\r\n\r\n".toList) ++ body

/-- The bytes before the first empty line and those after it; `done` holds the former, the last
    one first. -/
def splitHeaderFrom (done : Bytes) : Bytes → Option (Bytes × Bytes)
  | 13 :: 10 :: 13 :: 10 :: rest => some (done.reverse, rest)
  | [] => none
  | b :: rest => splitHeaderFrom (b :: done) rest

def splitHeader? (bytes : Bytes) : Option (Bytes × Bytes) := splitHeaderFrom [] bytes

def headerText (header : Bytes) : Text :=
  header.map fun b => if b < 128 then Char.ofNat b.toNat else Utf8.replacement

def headerLines : Text → List Text
  | [] => [[]]
  | '\r' :: '\n' :: rest => [] :: headerLines rest
  | c :: rest =>
    match headerLines rest with
    | [] => [[c]]
    | line :: more => (c :: line) :: more

def lengthName : Text := "content-length".toList

/-- The length that header lines announce; the last announcement counts, and all of them have to
    be numbers. -/
def announced (found : Option Int) : List Text → Except FrameError (Option Int)
  | [] => .ok found
  | line :: more =>
    let (name, value) := cut ':' line
    if lower (trim name) == lengthName then
      match WholeNumber.read (trim (value.getD [])) with
      | .ok n => announced (some n) more
      | .error e => .error (.invalidLength e)
    else announced found more

def limit : Nat := 65536

inductive Outcome
  -- More bytes are needed.
  | wait
  -- The stream has ended without another whole message.
  | ended
  | message (payload : Json) (rest : Bytes)
  | failed (cause : FrameError) (rest : Bytes)

def parseBody (nesting : Nat) (body : Bytes) : Except FrameError Json :=
  match Utf8.decode body with
  | .error fault => .error (.invalidText fault)
  | .ok t =>
    match Json.read nesting t with
    | .error e => .error (.invalidJson e)
    | .ok payload => .ok payload

/-- What the bytes received so far hold first; `closed` tells that no more will come. A body may
    nest `nesting` levels below its outermost one. -/
def next (nesting : Nat) (received : Bytes) (closed : Bool) : Outcome :=
  let incomplete : Outcome := if closed then .ended else .wait
  match splitHeader? received with
  | none =>
    if limit + 3 < received.length then .failed .unendingHeader received
    else incomplete
  | some (header, rest) =>
    if limit < header.length then .failed .longHeader received
    else match announced none (headerLines (headerText header)) with
      | .error e => .failed e rest
      | .ok none => .failed .missingLength rest
      | .ok (some n) =>
        if n < 0 then .failed .negativeLength rest
        else if rest.length < n.toNat then incomplete
        else
          match parseBody nesting (rest.take n.toNat) with
          | .ok payload => .message payload (rest.drop n.toNat)
          | .error e => .failed e (rest.drop n.toNat)

end Frame

end TemplateTypes
