import TemplateTypes.Proofs.Server.Writes

namespace TemplateTypes

open Text

def Frame.messages (nesting : Nat) : (fuel : Nat) → Bytes → (closed : Bool) → List Json
  | 0, _, _ => []
  | fuel + 1, bytes, closed =>
    match next nesting bytes closed with
    | .message .null _ => []
    | .message payload rest => payload :: messages nesting fuel rest closed
    | _ => []

def ServerProcess.messages (p : ServerProcess) : List Json :=
  match p.reader with
  | .reading => Frame.messages p.nesting (p.unread.length + 1) p.unread p.outputEnded
  | _ => []

namespace Message

def answerTo (request : Nat) (payload : Json) : Option (Except Fault Json) :=
  match meaning payload with
  | .ok (.response (some (.ofNat id)) error result) =>
    if id = request then (responseOutcome error result).toOption else none
  | _ => none

def firstAnswer (request : Nat) (messages : List Json) : Option (Except Fault Json) :=
  messages.findSome? (answerTo request)

def question? (payload : Json) : Option Json :=
  match meaning payload with
  | .ok (.question id) => some id
  | _ => none

/-- An object whose id, if any, is an integer or a text, and whose error, if any, is an object. -/
structure WellFormed (payload : Json) : Prop where
  object : ∃ members, payload = .obj members
  id : ∀ id, payload.member? "id".toList = some id → (∃ n, id = .int n) ∨ ∃ t, id = .str t
  error : ∀ error, payload.member? "error".toList = some error → ∃ members, error = .obj members

theorem wellFormed_iff (payload : Json) :
    WellFormed payload ↔ (payload matches .obj _) ∧
      (∀ id ∈ payload.member? "id".toList, id matches .int _ | .str _) ∧
      ∀ error ∈ payload.member? "error".toList, error matches .obj _ := by
  constructor
  · rintro ⟨⟨members, rfl⟩, ids, errors⟩
    refine ⟨rfl, fun id there => ?_, fun error there => ?_⟩
    · rcases ids id there with ⟨n, rfl⟩ | ⟨t, rfl⟩ <;> rfl
    · obtain ⟨more, rfl⟩ := errors error there
      rfl
  · rintro ⟨object, ids, errors⟩
    refine ⟨?_, fun id there => ?_, fun error there => ?_⟩
    · cases payload <;> first | exact ⟨_, rfl⟩ | cases object
    · have kind := ids id there
      cases id <;> first | exact .inl ⟨_, rfl⟩ | exact .inr ⟨_, rfl⟩ | cases kind
    · have kind := errors error there
      cases error <;> first | exact ⟨_, rfl⟩ | cases kind

instance : DecidablePred WellFormed :=
  fun payload => decidable_of_iff _ (wellFormed_iff payload).symm

theorem firstAnswer_append (request : Nat) (earlier later : List Json) :
    firstAnswer request (earlier ++ later) =
      (firstAnswer request earlier).or (firstAnswer request later) := by
  unfold firstAnswer
  exact List.findSome?_append

theorem firstAnswer_cons (request : Nat) (payload : Json) (later : List Json) :
    firstAnswer request (payload :: later) =
      (answerTo request payload).or (firstAnswer request later) := by
  unfold firstAnswer
  rw [List.findSome?_cons]
  cases answerTo request payload <;> rfl

theorem any_name (members : List (Text × Json)) (name : Text) :
    members.any (·.1 == name) = (members.lookup name).isSome := by
  induction members with
  | nil => rfl
  | cons member more ih =>
    rw [List.any_cons, List.lookup_cons, ih]
    by_cases same : member.1 = name
    · rw [same, beq_self_eq_true]
      rfl
    · rw [beq_eq_false_iff_ne.mpr same, beq_eq_false_iff_ne.mpr (Ne.symm same)]
      rfl

theorem meaning_object (members : List (Text × Json)) :
    meaning (.obj members) = match members.lookup "id".toList with
      | some id => meaningOfMembers members id
      | none => .ok .nothing := by
  have named : mentions (.obj members) "id" = .ok (members.lookup "id".toList).isSome := by
    rw [mentions, any_name]
  unfold meaning
  rw [named]
  dsimp only
  cases members.lookup "id".toList <;> rfl

theorem responseOutcome_of_object {error : Option Json} (result : Json)
    (object : ∀ e, error = some e → ∃ members, e = .obj members) :
    ∃ outcome, responseOutcome error result = .ok outcome := by
  cases error with
  | none => exact ⟨.ok result, rfl⟩
  | some e =>
    obtain ⟨members, rfl⟩ := object e rfl
    obtain ⟨fault, told⟩ : ∃ fault, responseFault (.obj members) = .ok fault := by
      unfold responseFault
      split <;> exact ⟨_, rfl⟩
    refine ⟨.error fault, ?_⟩
    rw [responseOutcome, told]
    rfl

theorem WellFormed.cases {payload : Json} (formed : WellFormed payload) :
    meaning payload = .ok .nothing ∨ (∃ id, meaning payload = .ok (.question id)) ∨
      ∃ id error result outcome, meaning payload = .ok (.response id error result) ∧
        responseOutcome error result = .ok outcome := by
  obtain ⟨⟨members, rfl⟩, ids, errors⟩ := formed
  change ∀ id, members.lookup "id".toList = some id → _ at ids
  rw [meaning_object]
  cases there : members.lookup "id".toList with
  | none => exact .inl rfl
  | some id =>
    right
    dsimp only
    unfold meaningOfMembers
    split
    · exact .inl ⟨id, rfl⟩
    · right
      obtain ⟨outcome, told⟩ := responseOutcome_of_object
        ((members.lookup "result".toList).getD .null) errors
      rcases ids id there with ⟨n, rfl⟩ | ⟨t, rfl⟩
      · exact ⟨some n, _, _, outcome, rfl, told⟩
      · exact ⟨none, _, _, outcome, rfl, told⟩

end Message

/-- What is due for the questions among the messages. -/
def Message.repliesTo (messages : List Json) : List Json := (messages.filterMap question?).map reply

theorem Message.repliesTo_append (earlier later : List Json) :
    repliesTo (earlier ++ later) = repliesTo earlier ++ repliesTo later := by
  unfold repliesTo
  rw [List.filterMap_append, List.map_append]

def Effect.payload? : Effect → Option Json
  | .write _ payload => some payload
  | _ => none

namespace Client

/-- Requests take what they are answered unless they have been settled before. -/
def tell (answer : Nat → Option (Except Fault Json)) (pending : List PendingRequest) :
    List PendingRequest :=
  pending.map fun p => ⟨p.id, p.outcome.or (answer p.id)⟩

/-- A message up to the first one that the reader has to write a reply to, if that takes time. -/
def untilHeld (waits : Bool) : List Json → List Json
  | [] => []
  | m :: more => m :: if waits && (Message.question? m).isSome then [] else untilHeld waits more

/-- A reply would have to wait, for other writes or for the current process. -/
def keepsWaiting (c : Client) : Bool :=
  c.current.any fun process => !c.writes.isEmpty || (c.input process).isFull

/-- What a process is written has the same fate in both. -/
structure WritesAlike (c d : Client) : Prop where
  current : d.current = c.current
  writes : d.writes = c.writes
  input : ∀ process, d.input process = c.input process

theorem WritesAlike.refl (c : Client) : WritesAlike c c := ⟨rfl, rfl, fun _ => rfl⟩

theorem WritesAlike.isReachable {c d : Client} (alike : WritesAlike c d) :
    d.isReachable = c.isReachable := by
  unfold Client.isReachable
  rw [alike.current]
  simp only [alike.input]

theorem WritesAlike.keepsWaiting {c d : Client} (alike : WritesAlike c d) :
    d.keepsWaiting = c.keepsWaiting := by
  unfold Client.keepsWaiting
  rw [alike.current, alike.writes]
  simp only [alike.input]

theorem settle_eq_told {request : Nat} {outcome : Except Fault Json} (c : Client) :
    settle request outcome c = { c with
      pending := tell (fun id => if request = id then some outcome else none) c.pending } := by
  unfold settle
  congr 1
  apply List.map_congr_left
  intro p _
  obtain ⟨id, own⟩ := p
  by_cases same : id = request
  · cases own <;> simp [same]
  · cases own <;> simp [same, Ne.symm same]

theorem tell_unanswered {answer : Nat → Option (Except Fault Json)}
    {pending : List PendingRequest}
    (unanswered : ∀ p ∈ pending, p.outcome.isSome ∨ answer p.id = none) :
    tell answer pending = pending := by
  have same : tell answer pending = pending.map id := by
    apply List.map_congr_left
    intro p member
    obtain ⟨id, own⟩ := p
    cases own with
    | some outcome => rfl
    | none =>
      rcases unanswered _ member with settled | unheard
      · cases settled
      · simp only [unheard]
        rfl
  rw [same, List.map_id]

theorem tell_tell (first second : Nat → Option (Except Fault Json))
    (pending : List PendingRequest) :
    tell second (tell first pending) = tell (fun id => (first id).or (second id)) pending := by
  unfold tell
  rw [List.map_map]
  apply List.map_congr_left
  intro p _
  simp [Option.or_assoc]

theorem handle_response (process : Nat) {payload : Json} {id : Option Int} {error : Option Json} {result : Json}
    {outcome : Except Fault Json}
    (means : Message.meaning payload = .ok (.response id error result))
    (told : Message.responseOutcome error result = .ok outcome) (s : World) :
    handle process payload s =
      (none, { s.1 with pending := tell (Message.answerTo · payload) s.1.pending }, s.2) := by
  unfold handle
  rw [means]
  rcases id with _ | ⟨request⟩ | ⟨below⟩
  · rw [tell_unanswered]
    · rfl
    · simp [Message.answerTo, means]
  · dsimp only
    rw [bind_apply, read_apply]
    dsimp only
    split
    · have answers : (fun id => if request = id then some outcome else none) =
          (Message.answerTo · payload) := by
        funext id
        simp only [Message.answerTo, means, told]
        rfl
      rw [told]
      dsimp only
      rw [bind_apply, update_apply, pure_apply, settle_eq_told, answers]
    · rename_i settled
      rw [tell_unanswered]
      · rfl
      · intro p member
        by_cases same : p.id = request
        · left
          cases own : p.outcome with
          | some outcome => rfl
          | none =>
            have unsettled : s.1.isUnsettled request = true :=
              List.any_eq_true.mpr ⟨p, member, by simp [same, own]⟩
            exact absurd unsettled settled
        · right
          simp only [Message.answerTo, means]
          exact if_neg (Ne.symm same)
  · rw [tell_unanswered]
    · rfl
    · simp [Message.answerTo, means]

/-- What dealing with a message does to the writes of a reader that is not writing. -/
inductive Replied (process : Nat) (payload : Json) (c : Client) :
    List Writing → List Effect → Prop
  | silent (unasked : Message.question? payload = none) : Replied process payload c c.writes []
  | done (id : Json) (current : Nat) (asked : Message.question? payload = some id)
    (known : c.current = some current) (free : c.writes = [])
    (takes : c.input current = .taking) :
    Replied process payload c c.writes [.write current (Message.reply id)]
  | drains (id : Json) (current : Nat) (asked : Message.question? payload = some id)
    (known : c.current = some current) (free : c.writes = []) (full : c.input current = .full) :
    Replied process payload c [⟨.reader process, Message.reply id, none, .draining current⟩]
      [.write current (Message.reply id)]
  | queues (id : Json) (current : Nat) (asked : Message.question? payload = some id)
    (known : c.current = some current) (busy : c.writes ≠ []) :
    Replied process payload c (c.writes ++ [⟨.reader process, Message.reply id, none, .queued⟩]) []

/-- A question is replied to, now or later, and when that is not possible the reader ends. -/
theorem handle_question {id : Json} (process : Nat) {payload : Json}
    (means : Message.meaning payload = .ok (.question id)) (s : World) :
    ((∃ state, handle process payload s = (some state, s)) ∧ s.1.isReachable = false) ∨
      ∃ writes new, Replied process payload s.1 writes new ∧
        handle process payload s = (none, withWrites writes s.1, s.2 ++ new) := by
  have asked : Message.question? payload = some id := by simp [Message.question?, means]
  have handled : ∀ {sent : Sent} {after : World},
      send (.reader process) (Message.reply id) none s = (sent, after) →
        handle process payload s = (sent.elim none (fun e => some (replyEnd e)) none, after) := by
    intro sent after sends
    rw [handle, means]
    dsimp only
    rw [bind_apply, sends]
    cases sent <;> rfl
  obtain ⟨sent, after, sends, sent_eq⟩ := send_cases (.reader process) (Message.reply id) none s
  have whole := handled sent_eq
  cases sends with
  | notRunning none => exact .inl ⟨⟨_, whole⟩, by simp [isReachable, none]⟩
  | lost current reason known free lost =>
    exact .inl ⟨⟨_, whole⟩, by simp [isReachable, known, lost]⟩
  | done current known free takes =>
    exact .inr ⟨_, _, .done id current asked known free takes, whole⟩
  | drains current known free full =>
    exact .inr ⟨_, _, .drains id current asked known free full, whole⟩
  | queues current known busy =>
    refine .inr ⟨_, _, .queues id current asked known busy, ?_⟩
    rw [List.append_nil]
    exact whole

/-- An answer that makes no sense ends the reader if it is to a request that is still open. -/
theorem handle_senseless {id : Option Int} {error : Option Json} {result : Json} (process : Nat)
    {payload : Json} (means : Message.meaning payload = .ok (.response id error result))
    {fault : Fault} (told : Message.responseOutcome error result = .error fault) (s : World) :
    (∃ state, handle process payload s = (some state, s)) ∨
      handle process payload s = (none, s) := by
  unfold handle
  rw [means]
  rcases id with _ | ⟨request⟩ | ⟨below⟩
  · exact .inr rfl
  · dsimp only
    rw [bind_apply, read_apply, told]
    dsimp only
    split
    · exact .inl ⟨_, rfl⟩
    · exact .inr rfl
  · exact .inr rfl

/-- A message is dealt with, or the reader ends at it and nothing has changed. -/
theorem handle_cases (process : Nat) (payload : Json) (s : World) :
    ((∃ state, handle process payload s = (some state, s)) ∧
        (s.1.isReachable = true → ¬ Message.WellFormed payload)) ∨
      ∃ writes new, Replied process payload s.1 writes new ∧ handle process payload s =
        (none, withWrites writes { s.1 with
          pending := tell (Message.answerTo · payload) s.1.pending }, s.2 ++ new) := by
  cases means : Message.meaning payload with
  | error fault =>
    refine .inl ⟨⟨.crashed fault, by rw [handle, means]; rfl⟩, fun _ formed => ?_⟩
    rcases formed.cases with nothing | ⟨id, question⟩ | ⟨id, error, result, outcome, response, _⟩
    all_goals simp_all
  | ok meaning =>
    cases meaning with
    | nothing =>
      have quiet : Message.question? payload = none := by simp [Message.question?, means]
      refine .inr ⟨_, _, .silent quiet, ?_⟩
      rw [List.append_nil, tell_unanswered]
      · rw [handle, means]
        rfl
      · simp [Message.answerTo, means]
    | question id =>
      have untold : tell (Message.answerTo · payload) s.1.pending = s.1.pending := by
        rw [tell_unanswered]
        simp [Message.answerTo, means]
      rw [untold]
      refine (handle_question process means s).imp_left fun ⟨stopped, unreachable⟩ => ⟨stopped, ?_⟩
      intro can
      rw [unreachable] at can
      cases can
    | response id error result =>
      have quiet : Message.question? payload = none := by simp [Message.question?, means]
      cases told : Message.responseOutcome error result with
      | ok outcome =>
        refine .inr ⟨_, _, .silent quiet, ?_⟩
        rw [List.append_nil]
        exact handle_response process means told s
      | error fault =>
        rcases handle_senseless process means told s with stopped | passed
        · refine .inl ⟨stopped, fun _ formed => ?_⟩
          rcases formed.cases with nothing | ⟨_, question⟩ | ⟨_, _, _, _, response, told'⟩
          all_goals simp_all
        · refine .inr ⟨_, _, .silent quiet, ?_⟩
          rw [passed, List.append_nil, tell_unanswered]
          · rfl
          intro p _
          right
          have none : (Except.error fault : Except Fault (Except Fault Json)).toOption = none := rfl
          rcases id with _ | ⟨request⟩ | ⟨below⟩ <;> simp [Message.answerTo, means, told, none]

/-- A first part of what has arrived is dealt with. It is all of it unless the reader ends, which
    fails the requests that are still open. -/
structure Dealt (arrived handled : List Json) (new : List Effect) (before after : World) :
    Prop where
  first : handled <+: arrived
  effects : after.2 = before.2 ++ new
  replies : ∀ effect ∈ new, ∃ process id, before.1.current = some process ∧
    effect = .write process (Message.reply id)
  told : handled = arrived ∧
      after.1.pending = tell (Message.firstAnswer · handled) before.1.pending ∨
    after.1.pending =
      tell (fun id => (Message.firstAnswer id handled).or (some (.error exitFault)))
        before.1.pending
  atMost : (new.filterMap Effect.payload? ++ after.1.owed).Sublist
    (before.1.owed ++ Message.repliesTo handled)
  atLeast : before.1.isReachable = true →
    new.filterMap Effect.payload? ++ after.1.owed = before.1.owed ++ Message.repliesTo handled ∧
      ((∀ m ∈ arrived, Message.WellFormed m) → handled = arrived)

structure Heard (arrived : List Json) (before after : World) : Prop where
  tasks : after.1.tasks = before.1.tasks
  lastRequest : after.1.lastRequest = before.1.lastRequest
  calls : after.1.callWrites = before.1.callWrites
  lined : Lined before.1 → Lined after.1
  heard : ∃ handled new, Dealt arrived handled new before after

theorem Heard.unheard {s t : World} (tasks : t.1.tasks = s.1.tasks)
    (lastRequest : t.1.lastRequest = s.1.lastRequest) (calls : t.1.callWrites = s.1.callWrites)
    (lined : Lined s.1 → Lined t.1) (pending : t.1.pending = s.1.pending)
    (readers : t.1.readerWrites = s.1.readerWrites) (effects : t.2 = s.2) : Heard [] s t := by
  have untold : tell (Message.firstAnswer · []) s.1.pending = s.1.pending :=
    tell_unanswered fun _ _ => .inr rfl
  have owed : [] ++ t.1.owed = s.1.owed ++ [] := by rw [owed_congr readers, List.append_nil]; rfl
  exact ⟨tasks, lastRequest, calls, lined, [], [], List.prefix_refl _, by simp [effects], by simp,
    .inl ⟨rfl, pending.trans untold.symm⟩, owed ▸ .refl _, fun _ => ⟨owed, fun _ => rfl⟩⟩

theorem Heard.nothing (s : World) : Heard [] s s := .unheard rfl rfl rfl id rfl rfl rfl

theorem Heard.since {arrived : List Json} {before between after : World}
    (heard : Heard arrived between after) (alike : WritesAlike before.1 between.1)
    (tasks : between.1.tasks = before.1.tasks)
    (lastRequest : between.1.lastRequest = before.1.lastRequest)
    (pending : between.1.pending = before.1.pending) (effects : between.2 = before.2) :
    Heard arrived before after := by
  obtain ⟨handled, new, first, wrote, replies, told, atMost, atLeast⟩ := heard.heard
  have owed := owed_congr (readerWrites_congr alike.writes)
  rw [alike.isReachable, owed] at atLeast
  rw [owed] at atMost
  rw [pending] at told
  rw [effects] at wrote
  rw [alike.current] at replies
  exact ⟨heard.tasks.trans tasks, heard.lastRequest.trans lastRequest,
    heard.calls.trans (callWrites_congr alike.writes),
    fun lined => heard.lined (lined.congr alike.writes), handled, new, first, wrote, replies, told,
    atMost, atLeast⟩

theorem endReader_pending (process : Nat) (state : ReaderState) (s : World) :
    (endReader process state s).2.1.pending =
      tell (fun _ => some (.error exitFault)) s.1.pending := by
  have ended : (endReader process state s).2.1.pending = s.1.pending.map fun p =>
      if p.outcome.isNone then ⟨p.id, some (.error exitFault)⟩ else p := by
    unfold endReader
    rw [update_apply]
    dsimp only
    split <;> rfl
  rw [ended]
  apply List.map_congr_left
  intro p _
  obtain ⟨id, own⟩ := p
  cases own <;> rfl

/-- What the end of a reader leaves as it is. -/
structure EndKeeps (before after : World) : Prop where
  tasks : after.1.tasks = before.1.tasks
  lastRequest : after.1.lastRequest = before.1.lastRequest
  writes : after.1.writes = before.1.writes
  effects : after.2 = before.2

theorem endReader_keeps (process : Nat) (state : ReaderState) (s : World) :
    EndKeeps s (endReader process state s).2 := by
  unfold endReader
  rw [update_apply]
  dsimp only
  split <;> exact ⟨rfl, rfl, rfl, rfl⟩

theorem heard_endReader (process : Nat) (state : ReaderState) {arrived : List Json} {s : World}
    (broken : s.1.isReachable = true → (∀ m ∈ arrived, Message.WellFormed m) → [] = arrived) :
    Heard arrived s (endReader process state s).2 := by
  obtain ⟨tasks, lastRequest, writes, effects⟩ := endReader_keeps process state s
  have owed : [] ++ (endReader process state s).2.1.owed = s.1.owed ++ [] := by
    rw [owed_congr (readerWrites_congr writes), List.append_nil]
    rfl
  exact ⟨tasks, lastRequest, callWrites_congr writes, (·.congr writes), [], [], List.nil_prefix,
    by simp [effects], by simp, .inr (endReader_pending process state s), owed ▸ .refl _,
    fun can => ⟨owed, broken can⟩⟩

/-- One message is dealt with. -/
structure Deals (payload : Json) (before after : World) : Prop where
  tasks : after.1.tasks = before.1.tasks
  lastRequest : after.1.lastRequest = before.1.lastRequest
  current : after.1.current = before.1.current
  isReachable : after.1.isReachable = before.1.isReachable
  calls : after.1.callWrites = before.1.callWrites
  lined : Lined before.1 → Lined after.1
  pending : after.1.pending = tell (Message.answerTo · payload) before.1.pending
  wrote : ∃ new, after.2 = before.2 ++ new ∧
    (∀ effect ∈ new, ∃ process id, before.1.current = some process ∧
      effect = .write process (Message.reply id)) ∧
    new.filterMap Effect.payload? ++ after.1.owed =
      before.1.owed ++ Message.repliesTo [payload]

theorem Heard.cons {payload : Json} {more : List Json} {before between after : World}
    (deals : Deals payload before between) (rest : Heard more between after) :
    Heard (payload :: more) before after := by
  obtain ⟨handled, new, first, wrote, replied, told, atMost, atLeast⟩ := rest.heard
  obtain ⟨tasks, lastRequest, current, isReachable, calls, lined, pending, new', wrote', replied',
    owed⟩ := deals
  have both : Message.repliesTo (payload :: handled) =
      Message.repliesTo [payload] ++ Message.repliesTo handled :=
    Message.repliesTo_append [payload] handled
  have shift : (new' ++ new).filterMap Effect.payload? ++ after.1.owed =
      new'.filterMap Effect.payload? ++ (new.filterMap Effect.payload? ++ after.1.owed) := by
    rw [List.filterMap_append, List.append_assoc]
  have due : new'.filterMap Effect.payload? ++ (between.1.owed ++ Message.repliesTo handled) =
      before.1.owed ++ Message.repliesTo (payload :: handled) := by
    rw [both, ← List.append_assoc, owed, List.append_assoc]
  refine ⟨rest.tasks.trans tasks, rest.lastRequest.trans lastRequest, rest.calls.trans calls,
    fun before => rest.lined (lined before), payload :: handled, new' ++ new,
    List.cons_prefix_cons.mpr ⟨rfl, first⟩, ?_, ?_, ?_, ?_, ?_⟩
  · rw [wrote, wrote', List.append_assoc]
  · intro effect member
    rcases List.mem_append.mp member with own | later
    · exact replied' effect own
    · rw [← current]
      exact replied effect later
  · rw [pending, tell_tell, tell_tell] at told
    rcases told with ⟨all, told⟩ | told
    · refine .inl ⟨by rw [all], ?_⟩
      simpa only [Message.firstAnswer_cons] using told
    · right
      simpa only [Message.firstAnswer_cons, Option.or_assoc] using told
  · rw [shift, ← due]
    exact atMost.append_left _
  · intro can
    obtain ⟨whole, all⟩ := atLeast (isReachable.trans can)
    refine ⟨by rw [shift, whole, due], fun formed => ?_⟩
    rw [all fun m member => formed m (List.mem_cons_of_mem _ member)]

theorem readMessages_held {process : Nat} (fuel : Nat) {s : World}
    (writing : s.1.isWriting (.reader process) = true) :
    readMessages process fuel s = ((), s) := by
  cases fuel with
  | zero => rfl
  | succ fuel =>
    unfold readMessages
    rw [bind_apply, read_apply]
    dsimp only
    rw [if_pos writing]
    rfl

section

variable {process : Nat} {payload : Json} {c : Client} {writes : List Writing} {new : List Effect}

/-- The reader goes on with the next message, unless it is held up by its reply. -/
theorem Replied.held (replied : Replied process payload c writes new) :
    (writes = c.writes ∧ (c.keepsWaiting && (Message.question? payload).isSome) = false) ∨
      ((withWrites writes c).isWriting (.reader process) = true ∧
        (c.keepsWaiting && (Message.question? payload).isSome) = true) := by
  cases replied with
  | silent unasked => exact .inl ⟨rfl, by simp [unasked]⟩
  | done id current asked known free takes =>
    exact .inl ⟨rfl, by simp [keepsWaiting, known, free, takes]⟩
  | drains id current asked known free full =>
    exact .inr ⟨by simp [isWriting, withWrites], by simp [keepsWaiting, known, full, asked]⟩
  | queues id current asked known busy =>
    exact .inr ⟨by simp [isWriting, withWrites], by simp [keepsWaiting, known, busy, asked]⟩

theorem Replied.owed (replied : Replied process payload c writes new) :
    new.filterMap Effect.payload? ++ (withWrites writes c).owed =
      c.owed ++ Message.repliesTo [payload] := by
  have nothing : c.writes = [] → c.owed = [] := by
    intro free
    simp [Client.owed, readerWrites, free]
  cases replied with
  | silent unasked =>
    simp only [Message.repliesTo, List.filterMap_cons, unasked, List.filterMap_nil, List.map_nil,
      List.append_nil]
    rfl
  | done id current asked known free takes =>
    have same : (withWrites c.writes c).owed = c.owed := rfl
    rw [same, nothing free]
    simp [Effect.payload?, Message.repliesTo, asked]
  | drains id current asked known free full =>
    rw [nothing free]
    simp [Effect.payload?, Message.repliesTo, asked, Client.owed, readerWrites, withWrites,
      Writing.entry, Writing.isCall]
  | queues id current asked known busy =>
    simp [Message.repliesTo, asked, Client.owed, readerWrites, withWrites, Writing.entry,
      Writing.isCall]

theorem Replied.calls (replied : Replied process payload c writes new) :
    (withWrites writes c).callWrites = c.callWrites := by
  cases replied with
  | silent unasked => rfl
  | done id current asked known free takes => rfl
  | drains id current asked known free full =>
    simp [callWrites, withWrites, free, Writing.isCall]
  | queues id current asked known busy => simp [callWrites, withWrites, Writing.isCall]

theorem Replied.lined (replied : Replied process payload c writes new)
    (idle : c.isWriting (.reader process) = false) (lined : Lined c) :
    Lined (withWrites writes c) := by
  cases replied with
  | silent unasked => exact lined
  | done id current asked known free takes => exact lined
  | drains id current asked known free full =>
    exact lined.add idle (fun _ => ⟨id, rfl⟩) (.inl (by rw [free]; rfl))
  | queues id current asked known busy => exact lined.add idle (fun _ => ⟨id, rfl⟩) (.inr rfl)

theorem Replied.written (replied : Replied process payload c writes new) :
    ∀ effect ∈ new, ∃ process id, c.current = some process ∧
      effect = .write process (Message.reply id) := by
  intro effect member
  cases replied with
  | silent unasked => cases member
  | done id current asked known free takes =>
    exact ⟨current, id, known, List.mem_singleton.mp member⟩
  | drains id current asked known free full =>
    exact ⟨current, id, known, List.mem_singleton.mp member⟩
  | queues id current asked known busy => cases member

end

theorem heard_readMessages (process fuel : Nat) {s : World} {alive ended : Bool}
    {unread : Bytes} {nesting : Nat} {input : Input}
    (there : s.1.processes[process]? = some ⟨alive, unread, ended, .reading, nesting, input⟩)
    (idle : s.1.isWriting (.reader process) = false) :
    Heard (untilHeld s.1.keepsWaiting (Frame.messages nesting fuel unread ended)) s
      (readMessages process fuel s).2 := by
  induction fuel generalizing s unread with
  | zero => exact .nothing s
  | succ fuel ih =>
    unfold readMessages Frame.messages
    rw [bind_apply, read_apply]
    dsimp only
    rw [if_neg (by simp [idle]), there]
    dsimp only
    cases Frame.next nesting unread ended with
    | wait => exact .nothing s
    | ended => exact heard_endReader process _ fun _ _ => rfl
    | failed e rest => exact heard_endReader process _ fun _ _ => rfl
    | message payload rest =>
      -- The process is as it was read, but for the bytes taken from it.
      let taken : World :=
        (s.1.setProcess process ⟨alive, rest, ended, .reading, nesting, input⟩, s.2)
      have alike : WritesAlike s.1 taken.1 := ⟨rfl, rfl, input_setProcess there rfl rfl⟩
      have goesOn : Heard (untilHeld s.1.keepsWaiting
          (payload :: Frame.messages nesting fuel rest ended)) s
          ((handle process payload >>= readOn process fuel) taken).2 := by
        unfold untilHeld
        rw [bind_apply]
        rcases handle_cases process payload taken with
          ⟨⟨state, stopped⟩, malformed⟩ | ⟨writes, new, replied, dealt⟩
        · rw [stopped]
          refine (heard_endReader (s := taken) process state fun can formed => ?_).since alike rfl
            rfl rfl rfl
          exact absurd (formed payload List.mem_cons_self) (malformed can)
        · rw [dealt]
          let told : World := (withWrites writes { taken.1 with
            pending := tell (Message.answerTo · payload) taken.1.pending }, taken.2 ++ new)
          have deals : Deals payload s told :=
            ⟨rfl, rfl, rfl, alike.isReachable, replied.calls,
              fun lined => (replied.lined idle (lined.congr rfl)).congr rfl, rfl, new, rfl,
              replied.written, replied.owed⟩
          refine Heard.cons deals ?_
          rw [← alike.keepsWaiting]
          rcases replied.held with ⟨kept, free⟩ | ⟨held, waits⟩
          · rw [free]
            have still : WritesAlike taken.1 told.1 := ⟨rfl, kept, fun _ => rfl⟩
            have next : told.1.processes[process]? =
                some ⟨alive, rest, ended, .reading, nesting, input⟩ := getElem?_setProcess there
            have unheld : told.1.isWriting (.reader process) = false := by
              rw [← idle]
              unfold isWriting
              rw [still.writes]
              rfl
            rw [← still.keepsWaiting]
            exact ih next unheld
          · rw [waits]
            change Heard _ told (readMessages process fuel told).2
            rw [readMessages_held fuel held]
            exact .nothing told
      cases payload with
      | null => exact heard_endReader process _ fun _ _ => rfl
      | _ => exact goesOn

/-- What the reader of a process deals with when it goes on. -/
def heardFrom (c : Client) (process : Nat) : List Json :=
  if c.isWriting (.reader process) then []
  else match c.processes[process]? with
  | some p => untilHeld c.keepsWaiting p.messages
  | none => []

theorem heard_readOutput (process : Nat) (s : World) :
    Heard (s.1.heardFrom process) s (readOutput process s).2 := by
  unfold readOutput heardFrom
  rw [bind_apply, read_apply]
  dsimp only
  cases there : s.1.processes[process]? with
  | none =>
    rw [ite_self]
    exact .nothing s
  | some p =>
    cases writing : s.1.isWriting (.reader process) with
    | true =>
      dsimp only
      rw [readMessages_held _ writing]
      exact .nothing s
    | false =>
      obtain ⟨alive, unread, ended, reader, nesting, input⟩ := p
      cases reader with
      | reading => exact heard_readMessages process _ there writing
      | _ =>
        dsimp only
        unfold readMessages
        rw [bind_apply, read_apply]
        dsimp only
        rw [writing, if_neg (by decide), if_neg (by decide), there]
        exact .nothing s

def heardOn (process : Nat) : Sent × World → List Json
  | (.done, after) => after.1.heardFrom process
  | _ => []

def arrived (c : Client) : Event → List Json
  | .output process bytes =>
    (adjust process (fun p => { p with unread := p.unread ++ bytes }) c).heardFrom process
  | .outputEnded process =>
    (adjust process (fun p => { p with outputEnded := true }) c).heardFrom process
  | .readerResumed process => heardOn process (resumeWrite (.reader process) (c, []))
  | _ => []

theorem writesAlike_adjust {process : Nat} {f : ServerProcess → ServerProcess} (c : Client)
    (alive : ∀ p, (f p).alive = p.alive) (input : ∀ p, (f p).input = p.input) :
    WritesAlike c (adjust process f c) := by
  unfold adjust
  split
  · rename_i p there
    exact ⟨rfl, rfl, input_setProcess there (alive p) (input p)⟩
  · exact .refl c

/-- What becoming aware of something about a process leaves as it is. -/
theorem adjust_keeps (process : Nat) (f : ServerProcess → ServerProcess) (c : Client) :
    (adjust process f c).tasks = c.tasks ∧ (adjust process f c).lastRequest = c.lastRequest ∧
      (adjust process f c).pending = c.pending ∧ (adjust process f c).writes = c.writes := by
  unfold adjust
  split <;> exact ⟨rfl, rfl, rfl, rfl⟩

theorem heard_adjusted {process : Nat} {f : ServerProcess → ServerProcess} (c : Client)
    (alive : ∀ p, (f p).alive = p.alive) (input : ∀ p, (f p).input = p.input) :
    Heard ((adjust process f c).heardFrom process) (c, [])
      ((update (adjust process f) >>= fun _ => readOutput process) (c, [])).2 := by
  rw [bind_apply, update_apply]
  obtain ⟨tasks, count, pending, _⟩ := adjust_keeps process f c
  have heard := heard_readOutput process (adjust process f c, [])
  exact heard.since (writesAlike_adjust c alive input) tasks count pending rfl

theorem heard_output (now : Int) (c : Client) (process : Nat) (bytes : Bytes) :
    Heard (c.arrived (.output process bytes)) (c, []) (step now c (.output process bytes)) :=
  heard_adjusted (f := fun p => { p with unread := p.unread ++ bytes }) c (fun _ => rfl) fun _ => rfl

theorem heard_outputEnded (now : Int) (c : Client) (process : Nat) :
    Heard (c.arrived (.outputEnded process)) (c, []) (step now c (.outputEnded process)) :=
  heard_adjusted (f := fun p => { p with outputEnded := true }) c (fun _ => rfl) fun _ => rfl

theorem heard_exited (now : Int) (c : Client) (process : Nat) :
    Heard [] (c, []) (step now c (.exited process)) := by
  let exited (p : ServerProcess) : ServerProcess := { p with alive := false }
  obtain ⟨tasks, count, pending, writes⟩ := adjust_keeps process exited c
  exact .unheard tasks count (callWrites_congr writes) (·.congr writes) pending
    (readerWrites_congr writes) rfl

theorem heard_input (now : Int) (c : Client) (process : Nat) (state : Input) :
    Heard [] (c, []) (step now c (.input process state)) := by
  let noticed (p : ServerProcess) : ServerProcess := { p with input := p.input.next state }
  obtain ⟨tasks, count, pending, writes⟩ := adjust_keeps process noticed c
  have calls : (wake process state (adjust process noticed c)).callWrites = c.callWrites :=
    (callWrites_wake _ _ _).trans (callWrites_congr writes)
  have readers : (wake process state (adjust process noticed c)).readerWrites = c.readerWrites :=
    (readerWrites_wake _ _ _).trans (readerWrites_congr writes)
  exact .unheard tasks count calls (fun lined => (lined.congr writes).wake process state) pending
    readers rfl

/-- A reader goes on from where its reply was held up. -/
theorem Heard.resumed {process : Nat} {arrived : List Json} {s t u : World} {w : Writing}
    {more : List Writing} {v : Option Writing} {new : List Effect} {sent : Sent} (lined : Lined s.1)
    (advances : Advances (.reader process) w more v new s sent t) (heard : Heard arrived t u) :
    Heard arrived s u := by
  have between := advances.lined lined
  obtain ⟨writes, own, rfl, goesOn, wrote, _, _, _⟩ := advances
  have reading : ∀ x : Writing, x.writer = .reader process → x.isCall = false := by
    intro x same
    simp [Writing.isCall, same]
  obtain ⟨handled, later, first, wrote', replied, told, atMost, atLeast⟩ := heard.heard
  obtain ⟨id, reply⟩ := lined.replies w (writes ▸ List.mem_cons_self) (reading w own)
  have calls : (withWrites (v.toList ++ more) s.1).callWrites = s.1.callWrites := by
    unfold callWrites
    rw [writes, List.filter_cons_of_neg (by simp [reading w own])]
    cases v with
    | none => rfl
    | some x => simp [withWrites, reading x (goesOn x rfl).1]
  have before : s.1.owed = (if w.progress.isQueued then [w.payload] else []) ++
      (withWrites (v.toList ++ more) s.1).owed := by
    unfold owed readerWrites
    rw [writes, List.filter_cons_of_pos (by simp [reading w own]), List.map_cons,
      List.filterMap_cons]
    have rest : ((withWrites (v.toList ++ more) s.1).writes.filter (!·.isCall)).map Writing.entry =
        (v.toList ++ more.filter (!·.isCall)).map Writing.entry := by
      cases v with
      | none => rfl
      | some x => simp [withWrites, reading x (goesOn x rfl).1]
    rw [rest, List.map_append, List.filterMap_append]
    cases v with
    | none => cases progress : w.progress <;> simp [Writing.entry, progress]
    | some x =>
      obtain ⟨_, _, _, process, drains⟩ := goesOn x rfl
      cases progress : w.progress <;> simp [Writing.entry, progress, drains]
  have begins : (new.filterMap Effect.payload? ++ (withWrites (v.toList ++ more) s.1).owed).Sublist
      s.1.owed := by
    rw [before]
    refine List.Sublist.append_right ?_ _
    rcases wrote with ⟨rfl, _⟩ | ⟨queued, process, _, rfl⟩
    · exact List.nil_sublist _
    · rw [queued]
      exact .refl _
  refine ⟨heard.tasks, heard.lastRequest, heard.calls.trans calls, fun _ => heard.lined between,
    handled, new ++ later, first, ?_, ?_, told, ?_, fun can => ?_⟩
  · rw [wrote', List.append_assoc]
  · intro effect member
    rcases List.mem_append.mp member with old | next
    · rcases wrote with ⟨rfl, _⟩ | ⟨_, process, known, rfl⟩
      · cases old
      · rw [reply] at old
        exact ⟨process, id, known, List.mem_singleton.mp old⟩
    · exact replied effect next
  · rw [List.filterMap_append, List.append_assoc]
    refine (atMost.append_left _).trans ?_
    rw [← List.append_assoc]
    exact begins.append_right _
  · obtain ⟨whole, all⟩ := atLeast can
    refine ⟨?_, all⟩
    rw [List.filterMap_append, List.append_assoc, whole, ← List.append_assoc, before]
    rcases wrote with ⟨rfl, failed⟩ | ⟨queued, process, _, rfl⟩
    · cases progress : w.progress with
      | queued => exact absurd (can.symm.trans (failed progress)) (by decide)
      | _ => rfl
    · rw [queued]
      rfl

theorem heard_goOnReading (process : Nat) (sent : Sent) (s : World) :
    Heard (heardOn process (sent, s)) s (goOnReading process sent s).2 := by
  cases sent with
  | done => exact heard_readOutput process s
  | failed e => exact heard_endReader process _ fun _ _ => rfl
  | waits => exact .nothing s

theorem step_readerResumed (now : Int) {c : Client} {process : Nat} {sent : Sent} {after : World}
    (resumed : resumeWrite (.reader process) (c, []) = (sent, after)) :
    step now c (.readerResumed process) = (goOnReading process sent after).2 := by
  have whole : step now c (.readerResumed process) =
      (goOnReading process (resumeWrite (.reader process) (c, [])).1
        (resumeWrite (.reader process) (c, [])).2).2 := rfl
  rw [whole, resumed]

theorem heard_readerResumed (now : Int) {c : Client} (lined : Lined c) (process : Nat) :
    Heard (c.arrived (.readerResumed process)) (c, []) (step now c (.readerResumed process)) := by
  obtain ⟨sent, after, resumes, resumed⟩ := resumeWrite_cases (.reader process) (c, [])
  have hears : c.arrived (.readerResumed process) = heardOn process (sent, after) :=
    congrArg (heardOn process) resumed
  rw [step_readerResumed now resumed, hears]
  have goesOn := heard_goOnReading process sent after
  rcases resumes.advances with ⟨_, _, rfl⟩ | ⟨w, more, v, new, advances⟩
  · exact goesOn
  · exact Heard.resumed lined advances goesOn

end Client

end TemplateTypes
