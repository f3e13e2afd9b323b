import TemplateTypes.Proofs.Server.Frame
import TemplateTypes.Server.Stream

namespace TemplateTypes.Frame

/-- Messages are read until the stream ends, each with the bytes that it takes from the stream. -/
inductive Reads (nesting : Nat) : Bytes → List Bytes → List (Json × Bytes) → Prop
  | ended {received : Bytes} {coming later : List Bytes}
    (read : readMessage nesting received coming = (.ended, later)) : Reads nesting received coming []
  | message {received taken rest : Bytes} {coming later : List Bytes} {payload : Json}
    {messages : List (Json × Bytes)}
    (read : readMessage nesting received coming = (.message payload rest, later))
    (took : received ++ coming.flatten = taken ++ (rest ++ later.flatten))
    (others : Reads nesting rest later messages) : Reads nesting received coming ((payload, taken) :: messages)

theorem Reads.unique {nesting : Nat} {received : Bytes} {coming : List Bytes} {messages others : List (Json × Bytes)}
    (first : Reads nesting received coming messages) (second : Reads nesting received coming others) :
    messages = others := by
  induction first generalizing others with
  | ended read =>
    cases second with
    | ended => rfl
    | message again => simp [read] at again
  | message read took _ ih =>
    cases second with
    | ended again => simp [read] at again
    | message again tookAgain rest =>
      rw [read, Prod.mk.injEq, Outcome.message.injEq] at again
      obtain ⟨⟨rfl, rfl⟩, rfl⟩ := again
      rw [took, List.append_left_inj] at tookAgain
      rw [tookAgain, ih rest]

variable {p : Packet} {nesting : Nat}

theorem readMessage_whole (sendable : p.Sendable nesting) (coming : List Bytes) {received tail : Bytes}
    (arriving : received ++ coming.flatten = p.wire ++ tail) :
    ∃ rest later, readMessage nesting received coming = (.message p.payload rest, later) ∧
      rest ++ later.flatten = tail := by
  induction coming generalizing received with
  | nil =>
    rw [List.flatten_nil, List.append_nil] at arriving
    refine ⟨tail, [], ?_, by simp⟩
    rw [readMessage, arriving, sendable.next_wire]
  | cons chunk coming ih =>
    rw [readMessage]
    rcases List.append_eq_append_iff.mp arriving with ⟨missing, whole, left⟩ | ⟨more, whole, left⟩
    · rcases eq_or_ne missing [] with rfl | incomplete
      · have complete := sendable.next_wire [] false
        rw [List.append_nil] at complete whole
        rw [← whole, complete]
        exact ⟨[], chunk :: coming, rfl, left⟩
      · rw [sendable.next_incomplete whole.symm incomplete]
        apply ih
        rw [← arriving, List.flatten_cons, List.append_assoc]
    · rw [whole, sendable.next_wire]
      exact ⟨more, chunk :: coming, rfl, left.symm⟩

theorem readMessage_part (sendable : p.Sendable nesting) (coming : List Bytes) {received missing : Bytes}
    (arriving : received ++ coming.flatten ++ missing = p.wire) (incomplete : missing ≠ []) :
    readMessage nesting received coming = (.ended, []) := by
  induction coming generalizing received with
  | nil =>
    rw [List.flatten_nil, List.append_nil] at arriving
    rw [readMessage, sendable.next_incomplete arriving incomplete]
    rfl
  | cons chunk coming ih =>
    rw [List.flatten_cons, List.append_assoc, List.append_assoc] at arriving
    rw [readMessage, sendable.next_incomplete arriving (by simp [incomplete])]
    apply ih
    simpa using arriving

theorem readMessage_nothing (coming : List Bytes) (nothing : coming.flatten = []) :
    readMessage nesting [] coming = (.ended, []) := by
  induction coming with
  | nil => rfl
  | cons chunk coming ih =>
    rw [List.flatten_cons, List.append_eq_nil_iff] at nothing
    rw [nothing.1]
    exact ih nothing.2

def arrived : (length : Nat) → List Packet → List Packet
  | _, [] => []
  | length, p :: more =>
    if p.wire.length ≤ length then p :: arrived (length - p.wire.length) more else []

theorem reads_arrived_from {packets : List Packet} (sendable : ∀ p ∈ packets, p.Sendable nesting)
    {received : Bytes} {coming : List Bytes}
    (start : received ++ coming.flatten <+: packets.flatMap Packet.wire) :
    Reads nesting received coming ((arrived (received ++ coming.flatten).length packets).map
      fun p => (p.payload, p.wire)) := by
  induction packets generalizing received coming with
  | nil =>
    rw [List.flatMap_nil, List.prefix_nil, List.append_eq_nil_iff] at start
    rw [start.1]
    exact .ended (readMessage_nothing coming start.2)
  | cons p more ih =>
    have first := sendable p List.mem_cons_self
    obtain ⟨rest, all⟩ := start
    rw [List.flatMap_cons] at all
    rw [arrived]
    split_ifs with whole
    · obtain ⟨tail, arriving⟩ : p.wire <+: received ++ coming.flatten :=
        List.prefix_of_prefix_length_le (List.prefix_append _ _) ⟨rest, all⟩ whole
      obtain ⟨left, later, read, remaining⟩ := readMessage_whole first coming arriving.symm
      have others : left ++ later.flatten <+: more.flatMap Packet.wire := by
        rw [← arriving, List.append_assoc, List.append_cancel_left_eq] at all
        exact ⟨rest, remaining ▸ all⟩
      have afterwards := ih (fun q member => sendable q (List.mem_cons_of_mem p member)) others
      have length : (received ++ coming.flatten).length - p.wire.length =
          (left ++ later.flatten).length := by
        rw [← arriving, remaining, List.length_append, Nat.add_sub_cancel_left]
      rw [List.map_cons, length]
      exact .message read (by rw [remaining, arriving]) afterwards
    · have part : received ++ coming.flatten <+: p.wire :=
        List.prefix_of_prefix_length_le ⟨rest, all⟩ (List.prefix_append _ _) (by omega)
      obtain ⟨missing, arriving⟩ := part
      have incomplete : missing ≠ [] := by
        rintro rfl
        rw [List.append_nil] at arriving
        exact whole (by rw [arriving])
      exact .ended (readMessage_part first coming arriving incomplete)

/-- The messages that are there as a whole are read, and nothing else. -/
theorem reads_arrived {packets : List Packet} (sendable : ∀ p ∈ packets, p.Sendable nesting)
    {chunks : List Bytes} (start : chunks.flatten <+: packets.flatMap Packet.wire)
    (messages : List (Json × Bytes)) :
    Reads nesting [] chunks messages ↔
      messages = (arrived chunks.flatten.length packets).map fun p => (p.payload, p.wire) := by
  have reads := @reads_arrived_from nesting packets sendable [] chunks start
  constructor
  · exact fun others => others.unique reads
  · rintro rfl
    exact reads

def traced : Packet :=
  ⟨["X-Trace: 1".toList], [], .obj [("a".toList, .str "\r\n\r\nContent-Length: 5".toList)]⟩

def typed : Packet :=
  ⟨[], ["Content-Type: json".toList],
    .obj [("n".toList, .int (-12)), ("e".toList, .str "é😀".toList)]⟩

theorem sendable_traced : traced.Sendable 0 where
  extra := by
    intro line member
    rw [List.mem_singleton.mp member]
    exact ⟨⟨by decide, by simp, by simp⟩, by decide⟩
  short := by decide +kernel
  length := by decide +kernel
  object := ⟨_, rfl⟩
  plain := ⟨by decide, trivial, trivial⟩
  shallow := by decide

theorem sendable_typed : typed.Sendable 0 where
  extra := by
    intro line member
    rw [List.mem_singleton.mp member]
    exact ⟨⟨by decide, by simp, by simp⟩, by decide⟩
  short := by decide +kernel
  length := by decide +kernel
  object := ⟨_, rfl⟩
  plain := ⟨by decide, show (Text.ofNat 12).length ≤ _ by decide, trivial, trivial⟩
  shallow := by decide

/-- The second message lacks its end, and no cut is at the end of the first. -/
def severed : List Bytes :=
  let all := traced.wire ++ typed.wire
  [all.take 25, (all.drop 25).take 40, [], (all.drop 65).take 80]

theorem reads_arrived_severed :
    (∀ p ∈ [traced, typed], p.Sendable 0) ∧
      severed.flatten <+: [traced, typed].flatMap Packet.wire ∧
      ∀ messages, Reads 0 [] severed messages ↔ messages = [(traced.payload, traced.wire)] := by
  have sendable : ∀ p ∈ [traced, typed], p.Sendable 0 := by
    simp [sendable_traced, sendable_typed]
  have start : severed.flatten <+: [traced, typed].flatMap Packet.wire :=
    ⟨typed.wire.drop 77, by decide +kernel⟩
  have first : arrived severed.flatten.length [traced, typed] = [traced] := by
    have length : severed.flatten.length = 145 := by decide +kernel
    have tracedLength : traced.wire.length = 68 := by decide +kernel
    have typedLength : typed.wire.length = 79 := by decide +kernel
    simp [arrived, length, tracedLength, typedLength]
  refine ⟨sendable, start, fun messages => ?_⟩
  have read := reads_arrived sendable start messages
  rwa [first] at read

end TemplateTypes.Frame
