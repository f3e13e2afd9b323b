import TemplateTypes.Proofs.Json.RoundTrip
import TemplateTypes.Proofs.Server.Header

namespace TemplateTypes.Frame

open Text

/-- A message with further header lines before and after the one that tells its length. -/
structure Packet where
  before : List Text
  after : List Text
  payload : Json

namespace Packet

def body (p : Packet) : Bytes := Utf8.encode p.payload.write

def lines (p : Packet) : List Text := p.before ++ lengthLine p.body.length :: p.after

def header (p : Packet) : Text := join lineEnd p.lines

def head (p : Packet) : Bytes := Utf8.encode (p.header ++ (lineEnd ++ lineEnd))

def wire (p : Packet) : Bytes := p.head ++ p.body

theorem wire_unadorned (payload : Json) : (Packet.mk [] [] payload).wire = encode payload := by
  have ends : "\r\n\r\n".toList = lineEnd ++ lineEnd := by decide
  unfold encode
  dsimp only
  rw [ends]
  rfl

/-- What a packet may hold; a length with more digits or deeper nesting could not be read. -/
structure Sendable (p : Packet) (nesting : Nat) : Prop where
  extra : ∀ line ∈ p.before ++ p.after, IsExtra line
  short : p.header.length ≤ limit
  length : (ofNat p.body.length).length ≤ WholeNumber.maxDigits
  object : ∃ members, p.payload = .obj members
  plain : p.payload.Plain
  shallow : p.payload.depth ≤ nesting + 1

variable {p : Packet} {nesting : Nat}

theorem Sendable.isLine (sendable : p.Sendable nesting) : ∀ line ∈ p.lines, IsLine line := by
  intro line member
  rcases List.mem_append.mp member with member | member
  · exact (sendable.extra line (List.mem_append_left _ member)).toIsLine
  · rcases List.mem_cons.mp member with rfl | member
    · exact isLine_lengthLine _
    · exact (sendable.extra line (List.mem_append_right _ member)).toIsLine

theorem lines_ne_nil (p : Packet) : p.lines ≠ [] := by simp [lines]

theorem ascii_join {lines : List Text} (isLine : ∀ line ∈ lines, IsLine line) :
    ∀ c ∈ join lineEnd lines, c.toNat < 128 := by
  have ends : ∀ c ∈ lineEnd, c.toNat < 128 := by simp [lineEnd]
  cases lines with
  | nil => simp [join]
  | cons line more =>
    intro c member
    rw [join_cons, List.mem_append, List.mem_flatMap] at member
    rcases member with member | ⟨next, inMore, member⟩
    · exact (isLine line List.mem_cons_self).ascii c member
    · rcases List.mem_append.mp member with member | member
      · exact ends c member
      · exact (isLine next (List.mem_cons_of_mem line inMore)).ascii c member

theorem Sendable.headerText_header (sendable : p.Sendable nesting) :
    headerText (Utf8.encode p.header) = p.header :=
  headerText_encode (ascii_join sendable.isLine)

theorem Sendable.length_header (sendable : p.Sendable nesting) :
    (Utf8.encode p.header).length = p.header.length := by
  have kept := congrArg List.length sendable.headerText_header
  rwa [headerText, List.length_map] at kept

theorem Sendable.announced_header (sendable : p.Sendable nesting) :
    announced none (headerLines (headerText (Utf8.encode p.header))) =
      .ok (some p.body.length) := by
  rw [sendable.headerText_header, header, headerLines_join sendable.isLine p.lines_ne_nil]
  exact announced_lines sendable.length sendable.extra

theorem Sendable.parseBody_body (sendable : p.Sendable nesting) : parseBody nesting p.body = .ok p.payload := by
  simp only [parseBody, body, Utf8.decode_encode,
    Json.read_write sendable.plain sendable.shallow]

theorem Sendable.splitHeader?_head (sendable : p.Sendable nesting) (rest : Bytes) :
    splitHeader? (p.head ++ rest) = some (Utf8.encode p.header, rest) :=
  splitHeader?_lines sendable.isLine p.lines_ne_nil rest

theorem Sendable.within_limit (sendable : p.Sendable nesting) :
    ¬ limit < (Utf8.encode p.header).length := by
  rw [sendable.length_header]
  exact Nat.not_lt.mpr sendable.short

theorem Sendable.next_wire (sendable : p.Sendable nesting) (rest : Bytes) (closed : Bool) :
    next nesting (p.wire ++ rest) closed = .message p.payload rest := by
  have split := sendable.splitHeader?_head (p.body ++ rest)
  have enough : ¬ (p.body ++ rest).length < p.body.length := by
    rw [List.length_append]
    omega
  rw [wire, List.append_assoc]
  unfold next
  simp only [split, sendable.within_limit, sendable.announced_header, Int.toNat_natCast, enough,
    ↓reduceIte, List.take_left, List.drop_left, sendable.parseBody_body]
  rw [if_neg (by omega)]

theorem Sendable.next_head (sendable : p.Sendable nesting) {start more : Bytes}
    (part : start ++ more = p.body) (incomplete : more ≠ []) (closed : Bool) :
    next nesting (p.head ++ start) closed = if closed then .ended else .wait := by
  have tooFew : start.length < p.body.length := by
    rw [← part, List.length_append]
    have := List.length_pos_iff.mpr incomplete
    omega
  unfold next
  simp only [sendable.splitHeader?_head start, sendable.within_limit, sendable.announced_header,
    Int.toNat_natCast, tooFew, ↓reduceIte]
  rw [if_neg (by omega)]

theorem Sendable.next_incomplete (sendable : p.Sendable nesting) {bytes more : Bytes}
    (part : bytes ++ more = p.wire) (incomplete : more ≠ []) (closed : Bool) :
    next nesting bytes closed = if closed then .ended else .wait := by
  rcases List.append_eq_append_iff.mp part with ⟨rest, inHead, atMore⟩ | ⟨start, inBody, restOfBody⟩
  · rcases eq_or_ne rest [] with rfl | unfinished
    · rw [List.append_nil] at inHead
      have atBody : ([] : Bytes) ++ more = p.body := atMore
      have whole := sendable.next_head atBody incomplete closed
      rwa [List.append_nil, inHead] at whole
    · have split : splitHeader? bytes = none :=
        splitHeader?_incomplete sendable.isLine p.lines_ne_nil inHead.symm unfinished
      have short : ¬ limit + 3 < bytes.length := by
        have lengths := congrArg List.length inHead
        rw [head, Utf8.encode_append, List.length_append, List.length_append,
          sendable.length_header] at lengths
        have ends : (Utf8.encode (lineEnd ++ lineEnd)).length = 4 := by decide
        have := List.length_pos_iff.mpr unfinished
        have := sendable.short
        omega
      unfold next
      simp only [split, if_neg short]
  · rw [inBody]
    exact sendable.next_head restOfBody.symm incomplete closed

end Packet

end TemplateTypes.Frame
