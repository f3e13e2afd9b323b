import TemplateTypes.Text.Quoted

namespace TemplateTypes.Utf8

open Text

def encodeChar (c : Char) : Bytes :=
  let n := c.toNat
  if n < 0x80 then [n.toUInt8]
  else if n < 0x800 then [(0xC0 + n / 64).toUInt8, (0x80 + n % 64).toUInt8]
  else if n < 0x10000 then
    [(0xE0 + n / 4096).toUInt8, (0x80 + n / 64 % 64).toUInt8, (0x80 + n % 64).toUInt8]
  else
    [(0xF0 + n / 262144).toUInt8, (0x80 + n / 4096 % 64).toUInt8, (0x80 + n / 64 % 64).toUInt8,
      (0x80 + n % 64).toUInt8]

def encode (t : Text) : Bytes := t.flatMap encodeChar

structure Pending where
  lead : UInt8
  -- How many bytes have been read.
  seen : Nat
  -- How many are still to come, one at least.
  owed : Nat
  -- The least and the greatest byte that may come next.
  low : Nat
  high : Nat
  value : Nat

inductive Reason
  | invalidStart
  | invalidContinuation
  | unexpectedEnd
  deriving DecidableEq, Repr

def Reason.message : Reason → Text
  | .invalidStart => "invalid start byte".toList
  | .invalidContinuation => "invalid continuation byte".toList
  | .unexpectedEnd => "unexpected end of data".toList

/-- `width` bytes from offset `start` on that are no character; `lead` is the first of them. -/
structure Fault where
  reason : Reason
  lead : UInt8
  start : Nat
  width : Nat
  deriving DecidableEq, Repr

def Fault.message (f : Fault) : Text :=
  let place :=
    if f.width = 1 then
      "byte 0x".toList ++ hex 2 f.lead.toNat ++ " in position ".toList ++ ofNat f.start
    else
      "bytes in position ".toList ++ ofNat f.start ++ ['-'] ++ ofNat (f.start + f.width - 1)
  "'utf-8' codec can't decode ".toList ++ place ++ ": ".toList ++ f.reason.message

inductive Start
  | char (c : Char)
  | pending (p : Pending)
  | invalid

def first (b : UInt8) : Start :=
  let n := b.toNat
  if n < 0x80 then .char (Char.ofNat n)
  else if n < 0xC2 then .invalid
  else if n < 0xE0 then .pending ⟨b, 1, 1, 0x80, 0xBF, n - 0xC0⟩
  else if n = 0xE0 then .pending ⟨b, 1, 2, 0xA0, 0xBF, 0⟩
  else if n = 0xED then .pending ⟨b, 1, 2, 0x80, 0x9F, 13⟩
  else if n < 0xF0 then .pending ⟨b, 1, 2, 0x80, 0xBF, n - 0xE0⟩
  else if n = 0xF0 then .pending ⟨b, 1, 3, 0x90, 0xBF, 0⟩
  else if n < 0xF4 then .pending ⟨b, 1, 3, 0x80, 0xBF, n - 0xF0⟩
  else if n = 0xF4 then .pending ⟨b, 1, 3, 0x80, 0x8F, 4⟩
  else .invalid

def Pending.accepts (p : Pending) (b : UInt8) : Bool := p.low ≤ b.toNat && b.toNat ≤ p.high

def Pending.push (p : Pending) (b : UInt8) : Start :=
  let value := p.value * 64 + (b.toNat - 0x80)
  if p.owed ≤ 1 then .char (Char.ofNat value)
  else .pending ⟨p.lead, p.seen + 1, p.owed - 1, 0x80, 0xBF, value⟩

/-- Reads on at offset `position`; `done` holds the characters read, the last one first. -/
def decodeFrom (pending : Option Pending) (position : Nat) (done : Text) :
    Bytes → Except Fault Text
  | [] =>
    match pending with
    | none => .ok done.reverse
    | some p => .error ⟨.unexpectedEnd, p.lead, position - p.seen, p.seen⟩
  | b :: rest =>
    match pending with
    | none =>
      match first b with
      | .char c => decodeFrom none (position + 1) (c :: done) rest
      | .pending p => decodeFrom (some p) (position + 1) done rest
      | .invalid => .error ⟨.invalidStart, b, position, 1⟩
    | some p =>
      if p.accepts b then
        match p.push b with
        | .char c => decodeFrom none (position + 1) (c :: done) rest
        | .pending q => decodeFrom (some q) (position + 1) done rest
        | .invalid => .error ⟨.invalidStart, b, position, 1⟩
      else .error ⟨.invalidContinuation, p.lead, position - p.seen, p.seen⟩

def decode (bytes : Bytes) : Except Fault Text := decodeFrom none 0 [] bytes

def replacement : Char := '\uFFFD'

/-- As `decodeFrom`, with one replacement character for each run of bytes that is none. -/
def decodeReplacingFrom (pending : Option Pending) (done : Text) : Bytes → Text
  | [] =>
    match pending with
    | none => done.reverse
    | some _ => (replacement :: done).reverse
  | b :: rest =>
    match pending with
    | none =>
      match first b with
      | .char c => decodeReplacingFrom none (c :: done) rest
      | .pending p => decodeReplacingFrom (some p) done rest
      | .invalid => decodeReplacingFrom none (replacement :: done) rest
    | some p =>
      if p.accepts b then
        match p.push b with
        | .char c => decodeReplacingFrom none (c :: done) rest
        | .pending q => decodeReplacingFrom (some q) done rest
        | .invalid => decodeReplacingFrom none (replacement :: done) rest
      else
        match first b with
        | .char c => decodeReplacingFrom none (c :: replacement :: done) rest
        | .pending q => decodeReplacingFrom (some q) (replacement :: done) rest
        | .invalid => decodeReplacingFrom none (replacement :: replacement :: done) rest

def decodeReplacing (bytes : Bytes) : Text := decodeReplacingFrom none [] bytes

end TemplateTypes.Utf8
