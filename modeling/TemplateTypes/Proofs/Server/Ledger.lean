import TemplateTypes.Proofs.Server.Arrivals
import Mathlib.Data.List.Nodup

namespace TemplateTypes

open Text

theorem Json.member?_object (members : List (String × Json)) (name : String) :
    (object members).member? name.toList = members.lookup name := by
  unfold object member?
  dsimp only
  induction members with
  | nil => rfl
  | cons member more ih =>
    rw [List.map_cons, List.lookup_cons, List.lookup_cons, ih]
    by_cases same : name = member.1
    · simp [same]
    · have apart : name.toList ≠ member.1.toList := fun equal => same (String.toList_inj.mp equal)
      rw [beq_eq_false_iff_ne.mpr apart, beq_eq_false_iff_ne.mpr same]

namespace Message

theorem meaning_of_object (members : List (String × Json)) :
    meaning (.object members) = match members.lookup "id" with
      | none => .ok .nothing
      | some id =>
        if (members.lookup "method").isSome then .ok (.question id)
        else do
          let id ← requestId? id
          return .response id (members.lookup "error") ((members.lookup "result").getD .null) := by
  have names := Json.member?_object members
  unfold Json.object Json.member? at names
  dsimp only at names
  unfold Json.object
  rw [meaning_object, names]
  cases members.lookup "id" with
  | none => rfl
  | some id =>
    dsimp only
    rw [meaningOfMembers, any_name, names, names, names]

@[simp]
theorem question?_request (id : Nat) (method : Text) (params : Json) :
    question? (request id method params) = some (.int id) := by
  simp [question?, request, meaning_of_object, version, List.lookup_cons]

@[simp]
theorem question?_notification (method : Text) (params : Json) :
    question? (notification method params) = none := by
  simp [question?, notification, meaning_of_object, version, List.lookup_cons]

@[simp]
theorem question?_reply (id : Json) : question? (reply id) = none := by
  simp [question?, reply, meaning_of_object, version, List.lookup_cons]
  cases requestId? id <;> rfl

def isReply (payload : Json) : Bool := !payload.has "method"

@[simp]
theorem isReply_request (id : Nat) (method : Text) (params : Json) :
    isReply (request id method params) = false := by
  rw [isReply, Json.has, request, Json.member?_object]
  simp [version, List.lookup_cons]

@[simp]
theorem isReply_notification (method : Text) (params : Json) :
    isReply (notification method params) = false := by
  rw [isReply, Json.has, notification, Json.member?_object]
  simp [version, List.lookup_cons]

@[simp]
theorem isReply_reply (id : Json) : isReply (reply id) = true := by
  rw [isReply, Json.has, reply, Json.member?_object]
  simp [version, List.lookup_cons]

/-- The number of the request that a message makes. -/
def request? (payload : Json) : Option Nat :=
  match question? payload with
  | some (.int (.ofNat id)) => some id
  | _ => none

@[simp]
theorem request?_request (id : Nat) (method : Text) (params : Json) :
    request? (request id method params) = some id := by
  simp [request?]

@[simp]
theorem request?_notification (method : Text) (params : Json) :
    request? (notification method params) = none := by
  simp [request?]

end Message

namespace Effect

def request? : Effect → Option Nat
  | .write _ payload => Message.request? payload
  | _ => none

def reply? : Effect → Option Json
  | .write _ payload => if Message.isReply payload then some payload else none
  | _ => none

def finished? : Effect → Option Nat
  | .finish call _ => some call
  | _ => none

end Effect

def Stage.request? : Stage → Option Nat
  | .handshake request _ | .answer request _ _ | .shutdownAnswer request => some request
  | _ => none

/-- A call may be writing at the stage. -/
def Stage.mayWrite : Stage → Bool
  | .handshake _ _ | .greeting _ | .opening _ | .answer _ _ _ | .lastWrite _ | .shutdownAnswer _
  | .farewell => true
  | _ => false

namespace Client

def openRequests (tasks : List CallTask) : List Nat := tasks.filterMap (·.stage.request?)

/-- The requests that are made but not written yet. -/
def unwritten (c : Client) : List Nat :=
  c.callWrites.filterMap fun (_, payload, _, queued) =>
    if queued then Message.request? payload else none

/-- Requests are pending just as long as calls wait for them; numbers are given out in order, and
    in that order the requests are written. -/
structure Booked (c : Client) : Prop where
  entries : c.pending.map (·.id) = openRequests c.tasks
  ascending : (c.pending.map (·.id)).Pairwise (· < ·)
  counted : ∀ id ∈ c.pending.map (·.id), id ≤ c.lastRequest
  distinct : (c.tasks.map (·.call)).Nodup
  lined : Lined c
  asks : ∀ entry ∈ c.callWrites, Message.isReply entry.2.1 = false
  ordered : c.unwritten.Pairwise (· < ·)
  known : ∀ id ∈ c.unwritten, id ≤ c.lastRequest
  awaited : ∀ call, c.isWriting (.call call) = true →
    ∃ t ∈ c.tasks, t.call = call ∧ t.stage.mayWrite = true

/-- The books are in order and hold nothing on a call. -/
structure Cleared (call : Nat) (c : Client) : Prop where
  booked : Booked (withoutTask call c)
  idle : c.isWriting (.call call) = false

/-- What acts on behalf of a call leave to the others. A request of theirs may fail, and readers may
    be kept from their replies. -/
structure ActsFor (call : Nat) (before after : World) : Prop where
  others : (withoutTask call after.1).tasks = (withoutTask call before.1).tasks
  count : before.1.lastRequest ≤ after.1.lastRequest
  pending : ∀ p ∈ after.1.pending, before.1.lastRequest < p.id ∨
    ∃ q ∈ before.1.pending, q.id = p.id ∧
      (p.outcome = q.outcome ∨ q.outcome = none ∧ p.outcome = some (.error exitFault))
  writes : after.1.callWrites.filter (·.1 != .call call) =
    before.1.callWrites.filter (·.1 != .call call)
  readers : ∃ keep : Writer → Bool, after.1.readerWrites = before.1.readerWrites.filter (keep ·.1)
  wrote : ∃ new, after.2 = before.2 ++ new ∧ new.filterMap Effect.reply? = [] ∧
    (∀ other ∈ new.filterMap Effect.finished?, other = call) ∧
    ∃ fresh : List Nat, (new.filterMap Effect.request? ++ after.1.unwritten).Sublist
        (before.1.unwritten ++ fresh) ∧
      fresh.Pairwise (· < ·) ∧ ∀ id ∈ fresh, before.1.lastRequest < id ∧ id ≤ after.1.lastRequest

def Keeps (call : Nat) (before after : World) : Prop :=
  Cleared call before.1 → Cleared call after.1 ∧ ActsFor call before after

/-- After the act the books are in order again. -/
def Closes (call : Nat) (before after : World) : Prop :=
  Cleared call before.1 → Booked after.1 ∧ ActsFor call before after

theorem unwritten_congr {c d : Client} (calls : d.callWrites = c.callWrites) :
    d.unwritten = c.unwritten := by
  unfold unwritten
  rw [calls]

theorem ActsFor.silent {call : Nat} {before after : World}
    (others : (withoutTask call after.1).tasks = (withoutTask call before.1).tasks)
    (count : before.1.lastRequest ≤ after.1.lastRequest)
    (old : ∀ p ∈ after.1.pending, p ∈ before.1.pending)
    (calls : after.1.callWrites = before.1.callWrites)
    (readers : ∃ keep : Writer → Bool,
      after.1.readerWrites = before.1.readerWrites.filter (keep ·.1))
    (effects : after.2 = before.2) : ActsFor call before after :=
  ⟨others, count, fun p there => .inr ⟨p, old p there, rfl, .inl rfl⟩, by rw [calls], readers, [],
    by simp [effects], rfl, by simp, [], by simp [unwritten_congr calls], .nil, by simp⟩

theorem readers_stay {c d : Client} (same : d.readerWrites = c.readerWrites) :
    ∃ keep : Writer → Bool, d.readerWrites = c.readerWrites.filter (keep ·.1) :=
  ⟨fun _ => true, same.trans (List.filter_eq_self.mpr fun _ _ => rfl).symm⟩

theorem ActsFor.refl (call : Nat) (s : World) : ActsFor call s s :=
  .silent rfl (Nat.le_refl _) (fun _ there => there) rfl (readers_stay rfl) rfl

theorem ActsFor.trans {call : Nat} {s t u : World} (first : ActsFor call s t)
    (second : ActsFor call t u) : ActsFor call s u := by
  obtain ⟨new, wrote, quiet, finished, fresh, written, sorted, bounds⟩ := first.wrote
  obtain ⟨new', wrote', quiet', finished', fresh', written', sorted', bounds'⟩ := second.wrote
  have count := first.count
  have count' := second.count
  refine ⟨second.others.trans first.others, by omega, ?_, second.writes.trans first.writes, ?_,
    new ++ new', ?_, ?_, ?_, fresh ++ fresh', ?_, ?_, ?_⟩
  · intro p there
    rcases second.pending p there with young | ⟨q, between, id, outcome⟩
    · exact .inl (by omega)
    · rcases first.pending q between with young | ⟨r, old, id', outcome'⟩
      · exact .inl (id ▸ young)
      · refine .inr ⟨r, old, id'.trans id, ?_⟩
        rcases outcome with same | ⟨open_, failed⟩
        · rwa [same]
        · rw [open_] at outcome'
          rcases outcome' with same | ⟨_, impossible⟩
          · exact .inr ⟨same.symm, failed⟩
          · cases impossible
  · obtain ⟨keep, kept⟩ := first.readers
    obtain ⟨keep', kept'⟩ := second.readers
    exact ⟨fun writer => keep' writer && keep writer, by rw [kept', kept, List.filter_filter]⟩
  · rw [wrote', wrote, List.append_assoc]
  · rw [List.filterMap_append, quiet, quiet', List.append_nil]
  · intro other member
    rw [List.filterMap_append, List.mem_append] at member
    exact member.elim (finished other) (finished' other)
  · -- What is written second has been unwritten after the first act, or is new since then.
    have later := written'.append_left (new.filterMap Effect.request?)
    have earlier := written.append_right fresh'
    rw [← List.append_assoc, ← List.append_assoc] at later
    rw [List.append_assoc _ fresh] at earlier
    rw [List.filterMap_append]
    exact later.trans earlier
  · rw [List.pairwise_append]
    refine ⟨sorted, sorted', fun id earlier id' later => ?_⟩
    have := (bounds id earlier).2
    have := (bounds' id' later).1
    omega
  · intro id member
    rcases List.mem_append.mp member with member | member
    · have := bounds id member
      omega
    · have := bounds' id member
      omega

theorem Keeps.closes {call : Nat} {s t u : World} (first : Keeps call s t)
    (second : Closes call t u) : Closes call s u := by
  intro cleared
  obtain ⟨between, acts⟩ := first cleared
  obtain ⟨booked, acts'⟩ := second between
  exact ⟨booked, acts.trans acts'⟩

theorem task?_eq_none_iff {c : Client} {call : Nat} :
    c.task? call = none ↔ ∀ t ∈ c.tasks, t.call ≠ call := by
  simp [task?]

theorem task?_call {c : Client} {call : Nat} {t : CallTask} (there : c.task? call = some t) :
    t.call = call := by
  have found := List.find?_some there
  simpa using found

theorem mem_of_task? {c : Client} {call : Nat} {t : CallTask} (there : c.task? call = some t) :
    t ∈ c.tasks := List.mem_of_find?_eq_some there

theorem withoutTask_of_none {c : Client} {call : Nat} (absent : c.task? call = none) :
    withoutTask call c = c := by
  have same : c.tasks.filter (·.call != call) = c.tasks := by
    rw [List.filter_eq_self]
    intro t member
    simpa using task?_eq_none_iff.mp absent t member
  unfold withoutTask
  rw [same]

theorem withoutTask_withoutTask (call : Nat) (c : Client) :
    withoutTask call (withoutTask call c) = withoutTask call c := by
  simp [withoutTask, List.filter_filter]

theorem isWriting_call_iff {c : Client} {call : Nat} :
    c.isWriting (.call call) = true ↔ ∃ entry ∈ c.callWrites, entry.1 = .call call := by
  rw [isWriting_iff]
  unfold callWrites
  constructor
  · rintro ⟨w, there, own⟩
    exact ⟨w.entry, List.mem_map_of_mem (List.mem_filter.mpr ⟨there, by simp [Writing.isCall, own]⟩),
      own⟩
  · rintro ⟨entry, member, own⟩
    obtain ⟨w, there, rfl⟩ := List.mem_map.mp member
    exact ⟨w, (List.mem_filter.mp there).1, own⟩

/-- The write that a call has under way. -/
def callWrite? (c : Client) (call : Nat) : Option (Writer × Json × Option Int × Bool) :=
  c.callWrites.find? (·.1 == .call call)

theorem callWrite?_eq_map (c : Client) (call : Nat) :
    c.callWrite? call = (c.writes.find? (·.writer == .call call)).map Writing.entry := by
  unfold callWrite? callWrites
  rw [List.find?_map, List.find?_filter]
  congr 2
  funext w
  cases writer : w.writer with
  | call number => by_cases same : number = call <;> simp [Writing.isCall, Writing.entry, writer, same]
  | reader process => simp [Writing.isCall, writer]

theorem isSome_callWrite? (c : Client) (call : Nat) :
    (c.callWrite? call).isSome = c.isWriting (.call call) := by
  rw [callWrite?_eq_map, Option.isSome_map, isWriting, List.isSome_find?]

theorem callWrite?_eq_none_iff {c : Client} {call : Nat} :
    c.callWrite? call = none ↔ c.isWriting (.call call) = false := by
  rw [← isSome_callWrite?, Option.isSome_eq_false_iff, Option.isNone_iff_eq_none]

theorem limit?_eq_bind (c : Client) (call : Nat) :
    c.limit? (.call call) = (c.callWrite? call).bind (·.2.2.1) := by
  rw [callWrite?_eq_map, limit?, Option.bind_map]
  rfl

theorem callWrite?_append {c : Client} {call : Nat} {w : Writing}
    (idle : c.callWrite? call = none) (own : w.writer = .call call) :
    (withWrites (c.writes ++ [w]) c).callWrite? call = some w.entry := by
  have none : c.writes.find? (·.writer == .call call) = none := by
    rwa [callWrite?_eq_map, Option.map_eq_none_iff] at idle
  rw [callWrite?_eq_map]
  change ((c.writes ++ [w]).find? _).map _ = _
  rw [List.find?_append, none]
  simp [own]

theorem callWrite?_congr {c d : Client} (calls : d.callWrites = c.callWrites) (call : Nat) :
    d.callWrite? call = c.callWrite? call := by
  unfold callWrite?
  rw [calls]

theorem Lined.callWrite? {c : Client} {call : Nat} {w : Writing} {more : List Writing}
    (lined : Lined c) (writes : c.writes = w :: more) (own : w.writer = .call call) :
    c.callWrite? call = some w.entry ∧ (withWrites more c).callWrite? call = none := by
  have distinct := lined.distinct
  rw [writes, List.map_cons, own, List.nodup_cons] at distinct
  constructor
  · rw [callWrite?_eq_map, writes, List.find?_cons_of_pos (by simp [own]), Option.map_some]
  · rw [callWrite?_eq_none_iff, isWriting, List.any_eq_false]
    intro x member same
    exact distinct.1 (List.mem_map.mpr ⟨x, member, beq_iff_eq.mp same⟩)

/-- A message is handed to the current process, or nothing is put out. -/
def Hands (c : Client) (payload : Json) (begins : Bool) (new : List Effect) : Prop :=
  if begins then ∃ process, c.current = some process ∧ c.isReachable = true ∧
    new = [.write process payload]
  else new = []

theorem Hands.silent {c : Client} {payload : Json} {begins : Bool} {new : List Effect}
    (hands : Hands c payload begins new) : new.filterMap Effect.finished? = [] := by
  unfold Hands at hands
  cases begins with
  | false =>
    obtain rfl : new = [] := hands
    rfl
  | true =>
    obtain ⟨process, _, _, rfl⟩ := hands
    rfl

theorem isReachable_of_taking {c : Client} {process : Nat} (current : c.current = some process)
    (takes : c.input process = .taking) : c.isReachable = true := by
  simp [isReachable, current, takes]

theorem isReachable_of_full {c : Client} {process : Nat} (current : c.current = some process)
    (full : c.input process = .full) : c.isReachable = true := by
  simp [isReachable, current, full]

/-- A call that has to wait is the writer of what it has not handed over yet, or of what the process
    has to make room for. -/
theorem Sends.waiting {call : Nat} {payload : Json} {limit : Option Int} {s after : World}
    (sends : Sends (.call call) payload limit s .waits after) (idle : s.1.callWrite? call = none) :
    ∃ writes queued new, after = (withWrites writes s.1, s.2 ++ new) ∧
      (withWrites writes s.1).callWrite? call = some (.call call, payload, limit, queued) ∧
      Hands s.1 payload (!queued) new ∧ ¬ Flows s.1 := by
  cases sends with
  | drains process current free full =>
    exact ⟨_, false, _, rfl, by simp [callWrite?_eq_map, withWrites, Writing.entry],
      ⟨process, current, isReachable_of_full current full, rfl⟩, fun flows => flows.not_full full⟩
  | queues process current busy =>
    exact ⟨_, true, [], by rw [List.append_nil], callWrite?_append idle rfl, rfl,
      fun flows => busy flows.free⟩

/-- A write has failed, or one to the current process would. -/
def isSevered (c : Client) : Bool := c.writes.any Writing.isLost || !c.isReachable

/-- A call goes on with what it writes. -/
inductive Turn (call : Nat) (c : Client) : Sent → World → Prop
  | done (payload : Json) (limit : Option Int) (queued : Bool) (writes : List Writing)
      (new : List Effect) (before : c.callWrite? call = some (.call call, payload, limit, queued))
      (idle : (withWrites writes c).callWrite? call = none) (hands : Hands c payload queued new) :
      Turn call c .done (withWrites writes c, new)
  | failed (e : WriteError) (writes : List Writing)
      (idle : (withWrites writes c).callWrite? call = none)
      (unknown : e = .unknownProcess → c.current = none) (severed : c.isSevered = true) :
      Turn call c (.failed e) (withWrites writes c, [])
  | waits (payload : Json) (limit : Option Int) (writes : List Writing) (new : List Effect)
      (before : c.callWrite? call = some (.call call, payload, limit, true))
      (later : (withWrites writes c).callWrite? call = some (.call call, payload, limit, false))
      (hands : Hands c payload true new) :
      Turn call c .waits (withWrites writes c, new)

theorem turn_cases {call : Nat} {c : Client} (lined : Lined c)
    (turn : c.canWrite (.call call) = true) :
    ∃ sent after, Turn call c sent after ∧ resumeWrite (.call call) (c, []) = (sent, after) := by
  obtain ⟨sent, after, resumes, resumed⟩ := resumeWrite_cases (.call call) (c, [])
  refine ⟨sent, after, ?_, resumed⟩
  cases resumes with
  | still held => exact absurd (held.symm.trans turn) (by decide)
  | drained w more writes own progress =>
    obtain ⟨writer, payload, limit, stage⟩ := w
    obtain rfl : writer = .call call := own
    obtain rfl : stage = .drained none := progress
    obtain ⟨before, rest⟩ := lined.callWrite? writes rfl
    exact .done payload limit false more [] before rest rfl
  | lost w more reason writes own progress =>
    have first : c.writes = w :: more := writes
    exact .failed _ more (lined.callWrite? writes own).2 (by simp)
      (by simp [isSevered, first, Writing.isLost, progress])
  | begun w more writes own progress puts =>
    obtain ⟨writer, payload, limit, stage⟩ := w
    obtain rfl : writer = .call call := own
    obtain rfl : stage = .queued := progress
    obtain ⟨before, rest⟩ := lined.callWrite? writes rfl
    cases puts with
    | done process current takes =>
      exact .done payload limit true more _ before rest
        ⟨process, current, isReachable_of_taking (c := c) current takes, rfl⟩
    | drains process current full =>
      refine .waits payload limit _ _ before ?_
        ⟨process, current, isReachable_of_full (c := c) current full, rfl⟩
      simp [callWrite?_eq_map, withWrites, Writing.entry]
    | unknown unknown =>
      have current : c.current = none := unknown
      exact .failed _ more rest (fun _ => current) (by simp [isSevered, isReachable, current])
    | lost process reason known gone =>
      have current : c.current = some process := known
      have lost : c.input process = .lost reason := gone
      exact .failed _ more rest (by simp) (by simp [isSevered, isReachable, current, lost])

theorem ActsFor.callWrite? {call other : Nat} {before after : World}
    (acts : ActsFor other before after) (apart : call ≠ other) :
    after.1.callWrite? call = before.1.callWrite? call := by
  have kept : ∀ c : Client, c.callWrite? call =
      (c.callWrites.filter (·.1 != .call other)).find? (·.1 == .call call) := by
    intro c
    rw [List.find?_filter]
    unfold Client.callWrite?
    congr 1
    funext write
    by_cases mine : write.1 = .call call
    · simp [mine, apart]
    · simp [mine]
  rw [kept, acts.writes, ← kept]

theorem isWriting_congr {c d : Client} (calls : d.callWrites = c.callWrites) (call : Nat) :
    d.isWriting (.call call) = c.isWriting (.call call) := by
  rw [Bool.eq_iff_iff, isWriting_call_iff, isWriting_call_iff, calls]

theorem Booked.congr {c d : Client} (booked : Booked c)
    (ids : d.pending.map (·.id) = c.pending.map (·.id)) (tasks : d.tasks = c.tasks)
    (count : c.lastRequest ≤ d.lastRequest) (calls : d.callWrites = c.callWrites)
    (lined : Lined c → Lined d) : Booked d := by
  refine ⟨?_, ids ▸ booked.ascending, ?_, tasks ▸ booked.distinct, lined booked.lined,
    calls ▸ booked.asks, ?_, ?_, ?_⟩
  · rw [ids, tasks]
    exact booked.entries
  · intro id member
    exact Nat.le_trans (booked.counted id (ids ▸ member)) count
  · rw [unwritten_congr calls]
    exact booked.ordered
  · intro id member
    rw [unwritten_congr calls] at member
    exact Nat.le_trans (booked.known id member) count
  · intro call writing
    rw [isWriting_congr calls] at writing
    rw [tasks]
    exact booked.awaited call writing

theorem Cleared.congr {call : Nat} {c d : Client} (cleared : Cleared call c)
    (ids : d.pending.map (·.id) = c.pending.map (·.id))
    (tasks : (withoutTask call d).tasks = (withoutTask call c).tasks)
    (count : c.lastRequest ≤ d.lastRequest) (calls : d.callWrites = c.callWrites)
    (lined : Lined c → Lined d) : Cleared call d := by
  obtain ⟨booked, idle⟩ := cleared
  exact ⟨booked.congr ids tasks count calls fun without => (lined (without.congr rfl)).congr rfl,
    (isWriting_congr calls call).trans idle⟩

theorem openRequests_cons (t : CallTask) (more : List CallTask) :
    openRequests (t :: more) = t.stage.request?.toList ++ openRequests more := by
  unfold openRequests
  rw [List.filterMap_cons]
  cases t.stage.request? <;> rfl

theorem openRequests_filter {tasks : List CallTask} {t : CallTask} (there : t ∈ tasks)
    (distinct : (tasks.map (·.call)).Nodup) (once : (openRequests tasks).Nodup) :
    openRequests (tasks.filter (·.call != t.call)) =
      (openRequests tasks).filter fun id => t.stage.request? != some id := by
  induction tasks with
  | nil => cases there
  | cons u more ih =>
    obtain ⟨alone, distinct⟩ := List.nodup_cons.mp distinct
    rw [openRequests_cons] at once ⊢
    obtain ⟨_, onceMore, apart⟩ := List.nodup_append.mp once
    rw [List.filter_append]
    rcases List.mem_cons.mp there with rfl | later
    · have others : more.filter (·.call != t.call) = more := by
        rw [List.filter_eq_self]
        intro v member
        have different : v.call ≠ t.call := fun same => alone (List.mem_map.mpr ⟨v, member, same⟩)
        simpa using different
      have gone : t.stage.request?.toList.filter (fun id => t.stage.request? != some id) = [] := by
        cases t.stage.request? <;> simp
      have kept : (openRequests more).filter (fun id => t.stage.request? != some id) =
          openRequests more := by
        rw [List.filter_eq_self]
        intro id member
        rw [bne_iff_ne]
        intro same
        exact apart id (by rw [same]; exact List.mem_singleton_self id) id member rfl
      rw [List.filter_cons_of_neg (by simp), others, gone, kept, List.nil_append]
    · have different : u.call ≠ t.call :=
        fun same => alone (List.mem_map.mpr ⟨t, later, same.symm⟩)
      have kept : u.stage.request?.toList.filter (fun id => t.stage.request? != some id) =
          u.stage.request?.toList := by
        rw [List.filter_eq_self]
        intro id member
        rw [bne_iff_ne]
        intro same
        exact apart id member id (List.mem_filterMap.mpr ⟨t, later, same⟩) rfl
      rw [List.filter_cons_of_pos (by simpa using different), openRequests_cons, kept,
        ih later distinct onceMore]

section

variable {c : Client} {call : Nat}

theorem Booked.once (booked : Booked c) : (openRequests c.tasks).Nodup := by
  rw [← booked.entries]
  exact booked.ascending.imp Nat.ne_of_lt

theorem Booked.withoutTask_tasks (booked : Booked c) (call : Nat) :
    ((withoutTask call c).tasks.map (·.call)).Nodup :=
  booked.distinct.sublist (List.filter_sublist.map _)

/-- What is queued stays in order without the task of a call that writes nothing. -/
theorem Booked.without (booked : Booked c) (idle : c.isWriting (.call call) = false)
    {pending : List PendingRequest}
    (entries : pending.map (·.id) = openRequests (withoutTask call c).tasks)
    (ascending : (pending.map (·.id)).Pairwise (· < ·))
    (counted : ∀ id ∈ pending.map (·.id), id ≤ c.lastRequest) :
    Cleared call { c with pending } := by
  refine ⟨⟨entries, ascending, counted, booked.withoutTask_tasks call, booked.lined.congr rfl,
    booked.asks, booked.ordered, booked.known, fun other writing => ?_⟩, idle⟩
  obtain ⟨t, there, same, may⟩ := booked.awaited other writing
  refine ⟨t, List.mem_filter.mpr ⟨there, ?_⟩, same, may⟩
  rw [bne_iff_ne, same]
  rintro rfl
  exact absurd (writing.symm.trans idle) (by decide)

theorem Booked.cleared (booked : Booked c) (idle : c.isWriting (.call call) = false)
    (unasked : ∀ t, c.task? call = some t → t.stage.request? = none) : Cleared call c := by
  refine booked.without idle ?_ booked.ascending booked.counted
  rw [booked.entries]
  cases there : c.task? call with
  | none => rw [withoutTask_of_none there]
  | some t =>
    have fewer := openRequests_filter (mem_of_task? there) booked.distinct booked.once
    rw [task?_call there, unasked t there] at fewer
    exact (fewer.trans (List.filter_eq_self.mpr fun _ _ => rfl)).symm

theorem Booked.forgotten {t : CallTask} {request : Nat} (booked : Booked c)
    (idle : c.isWriting (.call call) = false) (there : c.task? call = some t)
    (waits : t.stage.request? = some request) :
    Cleared call { c with pending := c.pending.filter (·.id != request) } := by
  have ids : (c.pending.filter (·.id != request)).map (·.id) =
      (c.pending.map (·.id)).filter (· != request) := by
    rw [List.filter_map]
    rfl
  have fewer : openRequests (withoutTask call c).tasks =
      (openRequests c.tasks).filter (· != request) := by
    have without := openRequests_filter (mem_of_task? there) booked.distinct booked.once
    rw [task?_call there, waits] at without
    refine without.trans (List.filter_congr fun id _ => ?_)
    rw [Bool.eq_iff_iff, bne_iff_ne, bne_iff_ne]
    exact ⟨fun apart same => apart (congrArg some same.symm),
      fun apart same => apart (Option.some.inj same).symm⟩
  refine booked.without idle ?_ ?_ ?_
  · rw [ids, fewer, booked.entries]
  · rw [ids]
    exact booked.ascending.filter _
  · intro id member
    rw [ids] at member
    exact booked.counted id (List.mem_filter.mp member).1

end

section

variable {call : Nat}

theorem keeps_update {f : Client → Client} (pending : ∀ c, (f c).pending = c.pending)
    (tasks : ∀ c, (f c).tasks = c.tasks) (count : ∀ c, (f c).lastRequest = c.lastRequest)
    (writes : ∀ c, (f c).writes = c.writes) : Ensures (Keeps call) (update f) := by
  intro s cleared
  have others : (withoutTask call (f s.1)).tasks = (withoutTask call s.1).tasks := by
    simp [withoutTask, tasks]
  have calls := callWrites_congr (writes s.1)
  have older := Nat.le_of_eq (count s.1).symm
  rw [update_apply]
  exact ⟨cleared.congr (by rw [pending]) others older calls (·.congr (writes s.1)),
    .silent others older (fun p there => pending s.1 ▸ there) calls
      (readers_stay (readerWrites_congr (writes s.1))) rfl⟩

theorem actsFor_emit {e : Effect} (request : e.request? = none) (reply : e.reply? = none)
    (finished : ∀ other, e.finished? = some other → other = call) :
    Ensures (ActsFor call) (emit e) := by
  intro s
  rw [emit_apply]
  refine ⟨rfl, Nat.le_refl _, fun p there => .inr ⟨p, there, rfl, .inl rfl⟩, rfl, readers_stay rfl,
    [e], rfl, ?_⟩
  cases ends : e.finished? with
  | none => exact ⟨by simp [reply], by simp [ends], [], by simp [request]⟩
  | some other => exact ⟨by simp [reply], by simp [ends, finished other ends], [], by simp [request]⟩

theorem keeps_passTurn : Ensures (Keeps call) (passTurn call) :=
  keeps_update (fun _ => rfl) (fun _ => rfl) (fun _ => rfl) fun _ => rfl

theorem Lined.unwrite {c : Client} (lined : Lined c) (writer : Writer) :
    Lined (unwrite writer c) :=
  ⟨lined.distinct.sublist (List.filter_sublist.map _),
    fun w member => lined.replies w (List.mem_filter.mp member).1⟩

theorem callWrites_unwrite (writer : Writer) (c : Client) :
    (unwrite writer c).callWrites = c.callWrites.filter (·.1 != writer) := by
  unfold callWrites unwrite
  dsimp only
  rw [List.filter_map, List.filter_filter, List.filter_filter]
  congr 2
  funext w
  exact Bool.and_comm _ _

theorem readerWrites_unwrite (writer : Writer) (c : Client) :
    (unwrite writer c).readerWrites = c.readerWrites.filter (·.1 != writer) := by
  unfold readerWrites unwrite
  dsimp only
  rw [List.filter_map, List.filter_filter, List.filter_filter]
  congr 2
  funext w
  exact Bool.and_comm _ _

theorem callWrites_unwrite_reader (process : Nat) (c : Client) :
    (unwrite (.reader process) c).callWrites = c.callWrites := by
  rw [callWrites_unwrite, List.filter_eq_self]
  intro entry member
  obtain ⟨w, there, rfl⟩ := List.mem_map.mp member
  have ofCall := (List.mem_filter.mp there).2
  rw [bne_iff_ne]
  intro same
  have reader : w.writer = .reader process := same
  simp [Writing.isCall, reader] at ofCall

theorem keeps_unwrite (process : Nat) :
    Ensures (Keeps call) (update (unwrite (.reader process))) := by
  intro s cleared
  have calls := callWrites_unwrite_reader process s.1
  exact ⟨cleared.congr rfl rfl (Nat.le_refl _) calls (·.unwrite _),
    .silent rfl (Nat.le_refl _) (fun _ there => there) calls
      ⟨(· != .reader process), readerWrites_unwrite _ _⟩ rfl⟩

theorem keeps_endReader (process : Nat) (state : ReaderState) :
    Ensures (Keeps call) (endReader process state) := by
  intro s cleared
  obtain ⟨tasks, count, writes, effects⟩ := endReader_keeps process state s
  have pending := endReader_pending process state s
  have calls := callWrites_congr writes
  have others : (withoutTask call (endReader process state s).2.1).tasks =
      (withoutTask call s.1).tasks := by simp [withoutTask, tasks]
  constructor
  · refine cleared.congr ?_ others (Nat.le_of_eq count.symm) calls (·.congr writes)
    rw [pending]
    simp [tell]
  · refine ⟨others, Nat.le_of_eq count.symm, ?_, by rw [calls],
      readers_stay (readerWrites_congr writes), [], by simp [effects], rfl, by simp, [],
      by simp [unwritten_congr calls], .nil, by simp⟩
    intro p there
    rw [pending] at there
    obtain ⟨q, member, rfl⟩ := List.mem_map.mp there
    refine .inr ⟨q, member, rfl, ?_⟩
    cases own : q.outcome with
    | none => exact .inr ⟨rfl, rfl⟩
    | some outcome => exact .inl rfl

theorem Ensures.closes_emit {a : Act Unit} {e : Effect} (closes : Ensures (Closes call) a)
    (emits : Ensures (ActsFor call) (emit e)) : Ensures (Closes call) (a >>= fun _ => emit e) := by
  intro s cleared
  obtain ⟨booked, acts⟩ := closes s cleared
  have same : (emit e (a s).2).2.1 = (a s).2.1 := rfl
  exact ⟨same ▸ booked, acts.trans (emits _)⟩

theorem closes_leave (outcome : Outcome) : Ensures (Closes call) (leave call outcome) := by
  have left : Ensures (Closes call) (update (withoutTask call)) := by
    intro s cleared
    rw [update_apply]
    have others := congrArg tasks (withoutTask_withoutTask call s.1)
    exact ⟨cleared.booked,
      .silent others (Nat.le_refl _) (fun _ there => there) rfl (readers_stay rfl) rfl⟩
  apply left.closes_emit
  apply actsFor_emit rfl rfl
  intro other same
  exact (Option.some.inj same).symm

theorem withoutTask_add {c d : Client} {t : CallTask}
    (tasks : d.tasks = (withoutTask t.call c).tasks ++ [t]) :
    (withoutTask t.call d).tasks = (withoutTask t.call c).tasks := by
  simp [withoutTask, tasks, List.filter_append, List.filter_filter]

/-- A client with a request that has been made and a write that takes time. -/
def busier (asked : Option Nat) (write : Option Writing) (c : Client) : Client :=
  { c with
    lastRequest := c.lastRequest + asked.toList.length
    pending := c.pending ++ asked.toList.map (⟨·, none⟩)
    writes := c.writes ++ write.toList }

/-- A write that has begun or is queued for a call at a stage, for what the call asks if anything. -/
structure WritesFor (call : Nat) (stage : Stage) (asked : Option Nat) (w : Writing) : Prop where
  own : w.writer = .call call
  asks : Message.isReply w.payload = false
  request : Message.request? w.payload = asked
  may : stage.mayWrite = true

theorem callWrites_busier {asked : Option Nat} {write : Option Writing} {stage : Stage}
    (for_ : ∀ w ∈ write, WritesFor call stage asked w) (c : Client) :
    (busier asked write c).callWrites = c.callWrites ++ write.toList.map Writing.entry := by
  unfold callWrites busier
  dsimp only
  rw [List.filter_append, List.map_append]
  congr 2
  rw [List.filter_eq_self]
  intro w there
  simp [Writing.isCall, (for_ w (Option.mem_toList.mp there)).own]

theorem readerWrites_busier {asked : Option Nat} {write : Option Writing} {stage : Stage}
    (for_ : ∀ w ∈ write, WritesFor call stage asked w) (c : Client) :
    (busier asked write c).readerWrites = c.readerWrites := by
  unfold readerWrites busier
  dsimp only
  rw [List.filter_append]
  cases write with
  | none => simp
  | some w => simp [Writing.isCall, (for_ w rfl).own]

theorem unwritten_busier {asked : Option Nat} {write : Option Writing} {stage : Stage}
    (for_ : ∀ w ∈ write, WritesFor call stage asked w) (c : Client) :
    (busier asked write c).unwritten = c.unwritten ++
      if write.any (·.progress.isQueued) then asked.toList else [] := by
  unfold unwritten
  rw [callWrites_busier for_, List.filterMap_append]
  congr 1
  cases write with
  | none => rfl
  | some w =>
    have asks := (for_ w rfl).request
    obtain ⟨writer, payload, limit, progress⟩ := w
    cases progress with
    | queued =>
      change List.filterMap _ [(writer, payload, limit, true)] = asked.toList
      rw [← asks]
      simp only [List.filterMap_cons, List.filterMap_nil, if_pos]
      cases Message.request? payload <;> rfl
    | _ => rfl

theorem lined_busier {asked : Option Nat} {write : Option Writing} {stage : Stage} {c : Client}
    (for_ : ∀ w ∈ write, WritesFor call stage asked w) (idle : c.isWriting (.call call) = false)
    (lined : Lined c) : Lined (busier asked write c) := by
  cases write with
  | none => exact lined.congr (List.append_nil _)
  | some w =>
    have own := (for_ w rfl).own
    refine lined.add (own ▸ idle) (fun reader => ?_) (.inr rfl)
    simp [Writing.isCall, own] at reader

/-- Whoever waits has made the request it waits for and may be writing. -/
theorem WritesFor.entries_others {call : Nat} {stage : Stage} {asked : Option Nat}
    {write : Option Writing} (for_ : ∀ w ∈ write, WritesFor call stage asked w) :
    (write.toList.map Writing.entry).filter (·.1 != .call call) = [] := by
  rw [List.filter_eq_nil_iff]
  intro entry member
  obtain ⟨w, there, rfl⟩ := List.mem_map.mp member
  have own : w.entry.1 = .call call := (for_ w (Option.mem_toList.mp there)).own
  simp [own]

/-- A request that is made now comes after those that were made before. -/
theorem numbers_append {asked : Option Nat} {last : Nat} (next : ∀ id ∈ asked, id = last + 1)
    {ids : List Nat} (order : ids.Pairwise (· < ·)) (old : ∀ id ∈ ids, id ≤ last) :
    (ids ++ asked.toList).Pairwise (· < ·) ∧
      ∀ id ∈ ids ++ asked.toList, id ≤ last + asked.toList.length := by
  cases asked with
  | none =>
    rw [Option.toList_none, List.append_nil]
    exact ⟨order, old⟩
  | some id =>
    obtain rfl := next id rfl
    refine ⟨List.pairwise_append.mpr ⟨order, List.pairwise_singleton _ _, ?_⟩, ?_⟩
    · intro earlier member later same
      have := old earlier member
      rw [List.mem_singleton.mp same]
      omega
    · intro number member
      rcases List.mem_append.mp member with member | same
      · exact Nat.le_succ_of_le (old number member)
      · rw [List.mem_singleton.mp same]
        exact Nat.le_refl _

theorem Cleared.waits {stage : Stage} {asked : Option Nat} {write : Option Writing} {s : World}
    (cleared : Cleared call s.1) (waits : stage.request? = asked)
    (next : ∀ id ∈ asked, id = s.1.lastRequest + 1)
    (for_ : ∀ w ∈ write, WritesFor call stage asked w) (deadline : Option Int)
    {new : List Effect} (replies : new.filterMap Effect.reply? = [])
    (finishes : new.filterMap Effect.finished? = [])
    (made : (new.filterMap Effect.request? ++ (busier asked write s.1).unwritten).Sublist
      (s.1.unwritten ++ asked.toList)) :
    Booked (wait call stage deadline (busier asked write s.1, s.2 ++ new)).2.1 ∧
      ActsFor call s (wait call stage deadline (busier asked write s.1, s.2 ++ new)).2 := by
  let t : CallTask := ⟨call, stage, deadline⟩
  generalize waited : (wait call stage deadline (busier asked write s.1, s.2 ++ new)).2 = after
  have tasks : after.1.tasks = (withoutTask call s.1).tasks ++ [t] := by rw [← waited]; rfl
  have pending : after.1.pending = s.1.pending ++ asked.toList.map (⟨·, none⟩) := by
    rw [← waited]; rfl
  have count : after.1.lastRequest = s.1.lastRequest + asked.toList.length := by rw [← waited]; rfl
  have calls : after.1.callWrites = s.1.callWrites ++ write.toList.map Writing.entry := by
    rw [← waited]
    exact callWrites_busier for_ s.1
  have readers : after.1.readerWrites = s.1.readerWrites := by
    rw [← waited]
    exact readerWrites_busier for_ s.1
  have unwritten : after.1.unwritten = (busier asked write s.1).unwritten := by rw [← waited]; rfl
  have effects : after.2 = s.2 ++ new := by rw [← waited]; rfl
  have ids : after.1.pending.map (·.id) = s.1.pending.map (·.id) ++ asked.toList := by
    rw [pending, List.map_append]
    cases asked <;> rfl
  obtain ⟨⟨entries, ascending, counted, distinct, lined, asks, ordered, known, awaited⟩, idle⟩ :=
    cleared
  change s.1.pending.map (·.id) = _ at entries
  change (s.1.pending.map (·.id)).Pairwise (· < ·) at ascending
  change ∀ id ∈ s.1.pending.map (·.id), _ at counted
  have lined : Lined after.1 := by
    rw [← waited]
    exact (lined_busier for_ idle (lined.congr rfl)).congr rfl
  have young : ∀ id ∈ asked.toList, s.1.lastRequest < id ∧ id ≤ after.1.lastRequest := by
    intro id member
    have asks := Option.mem_toList.mp member
    rw [count, next id asks, Option.mem_def.mp asks]
    simp
  have sorted : asked.toList.Pairwise (· < ·) := by cases asked <;> simp
  have mine : after.1.unwritten.Sublist (s.1.unwritten ++ asked.toList) := by
    rw [unwritten]
    exact (List.sublist_append_right _ _).trans made
  obtain ⟨rising, bounded⟩ := numbers_append next ascending counted
  obtain ⟨rising', bounded'⟩ := numbers_append next ordered known
  rw [← ids, ← count] at bounded
  rw [← count] at bounded'
  refine ⟨⟨?_, ids ▸ rising, bounded, ?_, lined, ?_, rising'.sublist mine,
    fun id member => bounded' id (mine.subset member), ?_⟩, withoutTask_add (t := t) tasks,
    by omega, ?_, ?_, readers_stay readers, new, effects, replies, by simp [finishes],
    asked.toList, unwritten ▸ made, sorted, young⟩
  · have ends : openRequests [t] = stage.request?.toList := by
      rw [openRequests_cons]
      exact List.append_nil _
    rw [ids, tasks, entries, ← waits, ← ends]
    exact List.filterMap_append.symm
  · rw [tasks, List.map_append, List.nodup_append]
    refine ⟨distinct, by simp, ?_⟩
    intro number member other single
    obtain ⟨u, there, rfl⟩ := List.mem_map.mp member
    have apart : u.call ≠ call := by simpa using (List.mem_filter.mp there).2
    rwa [List.mem_singleton.mp single]
  · intro entry member
    rw [calls] at member
    rcases List.mem_append.mp member with old | young
    · exact asks entry old
    · obtain ⟨w, there, rfl⟩ := List.mem_map.mp young
      exact (for_ w (Option.mem_toList.mp there)).asks
  · intro other writing
    obtain ⟨entry, member, own⟩ := isWriting_call_iff.mp writing
    rw [calls] at member
    rw [tasks]
    rcases List.mem_append.mp member with old | young
    · obtain ⟨u, there, same, may⟩ :=
        awaited other (isWriting_call_iff.mpr ⟨entry, old, own⟩)
      exact ⟨u, List.mem_append_left _ there, same, may⟩
    · obtain ⟨w, there, rfl⟩ := List.mem_map.mp young
      obtain ⟨mine, _, _, may⟩ := for_ w (Option.mem_toList.mp there)
      have same : Writer.call call = .call other := mine.symm.trans own
      exact ⟨t, by simp, Writer.call.inj same, may⟩
  · intro p there
    rw [pending] at there
    rcases List.mem_append.mp there with old | new
    · exact .inr ⟨p, old, rfl, .inl rfl⟩
    · obtain ⟨id, member, rfl⟩ := List.mem_map.mp new
      exact .inl (young id member).1
  · rw [calls, List.filter_append, WritesFor.entries_others for_, List.append_nil]

theorem busier_none (c : Client) : busier none none c = c := by
  unfold busier
  simp

theorem closes_wait {stage : Stage} (deadline : Option Int) (idle : stage.request? = none) :
    Ensures (Closes call) (wait call stage deadline) := by
  intro s cleared
  have waits : Booked (wait call stage deadline (busier none none s.1, s.2 ++ [])).2.1 ∧
      ActsFor call s (wait call stage deadline (busier none none s.1, s.2 ++ [])).2 :=
    cleared.waits idle (by simp) (by simp) deadline rfl rfl (by simp [busier_none])
  rwa [busier_none, List.append_nil] at waits

theorem reply?_written {process : Nat} {payload : Json} (asks : Message.isReply payload = false) :
    [Effect.write process payload].filterMap Effect.reply? = [] := by
  simp [Effect.reply?, asks]

theorem unwritten_of_free {c : Client} (free : c.writes = []) : c.unwritten = [] := by
  simp [unwritten, callWrites, free]

/-- A call writes, and perhaps has to wait for that; `asked` is the request that it makes so. -/
theorem Sends.closes {stage : Stage} {asked : Option Nat} {limit : Option Int} {payload : Json}
    {s t after : World} (cleared : Cleared call s.1)
    (before : t = (busier asked none s.1, s.2)) (waits : stage.request? = asked)
    (next : ∀ id ∈ asked, id = s.1.lastRequest + 1) (may : stage.mayWrite = true)
    (asks : Message.isReply payload = false) (request : Message.request? payload = asked)
    (sends : Sends (.call call) payload limit t .waits after) :
    Booked (wait call stage none after).2.1 ∧ ActsFor call s (wait call stage none after).2 := by
  subst before
  have same : (busier asked none s.1).writes = s.1.writes := List.append_nil _
  cases sends with
  | drains process current free full =>
    rw [same] at free
    let w : Writing := ⟨.call call, payload, limit, .draining process⟩
    have for_ : ∀ v ∈ some w, WritesFor call stage asked v := by
      rintro v ⟨⟩
      exact ⟨rfl, asks, request, may⟩
    have busy : withWrites [w] (busier asked none s.1) = busier asked (some w) s.1 := by
      simp [withWrites, busier, free]
    rw [busy]
    refine cleared.waits waits next for_ none (reply?_written asks) rfl ?_
    rw [unwritten_busier for_, unwritten_of_free free]
    cases asked <;> simp [Effect.request?, request, w]
  | queues process current busy =>
    let w : Writing := ⟨.call call, payload, limit, .queued⟩
    have for_ : ∀ v ∈ some w, WritesFor call stage asked v := by
      rintro v ⟨⟩
      exact ⟨rfl, asks, request, may⟩
    have busy : (withWrites ((busier asked none s.1).writes ++ [w]) (busier asked none s.1), s.2) =
        (busier asked (some w) s.1, s.2 ++ []) := by
      simp [withWrites, busier]
    rw [busy]
    refine cleared.waits waits next for_ none rfl rfl ?_
    rw [unwritten_busier for_]
    exact List.Sublist.refl _

theorem actsFor_write {process : Nat} {payload : Json} (asks : Message.isReply payload = false)
    (request : Message.request? payload = none) :
    Ensures (ActsFor call) (emit (.write process payload)) :=
  actsFor_emit request (by simp [Effect.reply?, asks]) fun _ no => by cases no

theorem sendThen_apply {stage : Stage} {limit : Option Int} {payload : Json}
    {next : Option WriteError → Act Unit} {s after : World} {sent : Sent}
    (sends : send (.call call) payload limit s = (sent, after)) :
    sendThen call stage limit payload next s =
      sent.elim (next none) (fun e => next (some e)) (wait call stage none) after := by
  unfold sendThen
  rw [bind_apply, sends]
  cases sent <;> rfl

theorem closes_sendThen {stage : Stage} {limit : Option Int} {payload : Json}
    {next : Option WriteError → Act Unit} (idle : stage.request? = none)
    (may : stage.mayWrite = true) (asks : Message.isReply payload = false)
    (request : Message.request? payload = none)
    (goes : ∀ failure, Ensures (Closes call) (next failure)) :
    Ensures (Closes call) (sendThen call stage limit payload next) := by
  intro s cleared
  obtain ⟨sent, after, sends, sent_eq⟩ := send_cases (.call call) payload limit s
  rw [sendThen_apply sent_eq]
  cases sent with
  | done =>
    cases sends with
    | done process current free takes =>
      have wrote : ActsFor call s (s.1, s.2 ++ [.write process payload]) :=
        actsFor_write asks request s
      obtain ⟨booked, acts⟩ := goes none (s.1, s.2 ++ [.write process payload]) cleared
      exact ⟨booked, wrote.trans acts⟩
  | failed e => cases sends <;> exact goes _ s cleared
  | waits =>
    refine sends.closes cleared ?_ idle (by simp) may asks request
    rw [busier_none]

theorem ask_apply {now limit : Int} {method : Text} {params : Json} (stage : Nat → Stage)
    {refused : WriteError → Act Unit} {s after : World} {sent : Sent}
    (sends : send (.call call) (Message.request (s.1.lastRequest + 1) method params) (some limit)
      (busier (some (s.1.lastRequest + 1)) none s.1, s.2) = (sent, after)) :
    ask now call stage limit method params refused s =
      sent.elim (wait call (stage (s.1.lastRequest + 1)) (some (now + limit)))
        (fun e => forget (s.1.lastRequest + 1) >>= fun _ => refused e)
        (wait call (stage (s.1.lastRequest + 1)) none) after := by
  have unfolded : ask now call stage limit method params refused s =
      sendThen call (stage (s.1.lastRequest + 1)) (some limit)
        (Message.request (s.1.lastRequest + 1) method params)
        (Option.elim · (wait call (stage (s.1.lastRequest + 1)) (some (now + limit)))
          fun e => forget (s.1.lastRequest + 1) >>= fun _ => refused e)
        (busier (some (s.1.lastRequest + 1)) none s.1, s.2) := by
    have same : busier (some (s.1.lastRequest + 1)) none s.1 = { s.1 with
        lastRequest := s.1.lastRequest + 1
        pending := s.1.pending ++ [⟨s.1.lastRequest + 1, none⟩] } := by
      simp [busier]
    rw [same]
    unfold ask
    rw [bind_apply, read_apply]
    dsimp only
    rw [bind_apply, update_apply]
    congr 1
    funext failure
    cases failure <;> rfl
  exact unfolded.trans (sendThen_apply sends)

theorem forget_busier {c : Client} (counted : ∀ id ∈ c.pending.map (·.id), id ≤ c.lastRequest)
    (effects : List Effect) :
    (forget (c.lastRequest + 1) (busier (some (c.lastRequest + 1)) none c, effects)).2 =
      ({ c with lastRequest := c.lastRequest + 1 }, effects) := by
  have dropped : ∀ p ∈ c.pending, p.id ≠ c.lastRequest + 1 := by
    intro p there same
    have := counted p.id (List.mem_map_of_mem there)
    omega
  have kept : c.pending.filter (·.id != c.lastRequest + 1) = c.pending := by
    rw [List.filter_eq_self]
    simpa using dropped
  unfold forget
  rw [update_apply]
  simp [busier, List.filter_append, kept]

theorem closes_ask {now limit : Int} {stage : Nat → Stage} {method : Text} {params : Json}
    {refused : WriteError → Act Unit} (waits : ∀ id, (stage id).request? = some id)
    (may : ∀ id, (stage id).mayWrite = true) (goes : ∀ e, Ensures (Closes call) (refused e)) :
    Ensures (Closes call) (ask now call stage limit method params refused) := by
  intro s cleared
  let id := s.1.lastRequest + 1
  let payload := Message.request id method params
  let made : World := (busier (some id) none s.1, s.2)
  have young : ∀ id' ∈ some id, id' = s.1.lastRequest + 1 :=
    fun _ same => (Option.some.inj same).symm
  obtain ⟨sent, after, sends, sent_eq⟩ := send_cases (.call call) payload (some limit) made
  rw [ask_apply stage sent_eq]
  cases sent with
  | done =>
    cases sends with
    | done process current free takes =>
      refine cleared.waits (waits id) young (by simp) _ (reply?_written (by simp [payload])) rfl ?_
      have unwritten : (busier (some id) none s.1).unwritten = [] := unwritten_of_free free
      have free : s.1.unwritten = [] := by
        have nothing : ∀ w ∈ (none : Option Writing), WritesFor call (stage id) (some id) w := nofun
        rw [unwritten_busier nothing] at unwritten
        exact (List.append_eq_nil_iff.mp unwritten).1
      simp [unwritten, free, Effect.request?, payload]
  | failed e =>
    -- The request has been given up again, but its number is used up.
    have numbered : Keeps call s ({ s.1 with lastRequest := id }, s.2) := by
      intro cleared
      exact ⟨cleared.congr rfl rfl (Nat.le_succ _) rfl fun lined => lined.congr rfl,
        .silent rfl (Nat.le_succ _) (fun _ there => there) rfl (readers_stay rfl) rfl⟩
    have forgot : (forget id made).2 = ({ s.1 with lastRequest := id }, s.2) :=
      forget_busier (c := s.1) cleared.booked.counted s.2
    have gone : Closes call s ((forget id >>= fun _ => refused e) made).2 := by
      rw [bind_apply, forgot]
      exact numbered.closes (goes e _)
    cases sends <;> exact gone cleared
  | waits =>
    exact sends.closes cleared rfl (waits id) young (may id) (by simp [payload]) (by simp [payload])

theorem closes_startFailed (fault : Fault) : Ensures (Closes call) (startFailed call fault) :=
  keeps_passTurn.followed (fun _ => closes_leave _) Keeps.closes

theorem closes_started (after : AfterStart) : Ensures (Closes call) (started call after) := by
  refine keeps_passTurn.followed (fun _ => ?_) Keeps.closes
  cases after with
  | finish => exact closes_leave _
  | hover q =>
    exact (closes_wait none rfl).closes_emit (actsFor_emit rfl rfl fun _ no => by cases no)

theorem closes_takeTurn (after : AfterStart) : Ensures (Closes call) (takeTurn call after) := by
  refine ensures_look fun c => ?_
  split
  · exact closes_started after
  · split
    · exact closes_startFailed _
    · exact (closes_wait none rfl).closes_emit (actsFor_emit rfl rfl fun _ no => by cases no)

theorem closes_enqueue (after : AfterStart) : Ensures (Closes call) (enqueue call after) := by
  refine Ensures.followed (R := Keeps call) ?_ (fun _ => ensures_look fun c => ?_) Keeps.closes
  · exact keeps_update (fun _ => rfl) (fun _ => rfl) (fun _ => rfl) fun _ => rfl
  · split
    · exact closes_takeTurn after
    · exact closes_wait none rfl

theorem closes_greet (now : Int) (after : AfterStart) :
    Ensures (Closes call) (greet now call after) := by
  refine Ensures.followed (R := Keeps call) ?_ (fun _ => ensures_look fun c => ?_) Keeps.closes
  · exact keeps_update (fun _ => rfl) (fun _ => rfl) (fun _ => rfl) fun _ => rfl
  · exact closes_ask (fun _ => rfl) (fun _ => rfl) fun e => closes_startFailed e.fault

theorem closes_greetingSent (after : AfterStart) (failure : Option WriteError) :
    Ensures (Closes call) (greetingSent call after failure) := by
  cases failure with
  | some e => exact closes_startFailed e.fault
  | none =>
    refine Ensures.followed (R := Keeps call) ?_ (fun _ => closes_started after) Keeps.closes
    exact keeps_update (fun _ => rfl) (fun _ => rfl) (fun _ => rfl) fun _ => rfl

theorem closes_greeted (after : AfterStart) (outcome : Except Fault Json) :
    Ensures (Closes call) (greeted call after outcome) := by
  cases outcome with
  | error fault => exact closes_startFailed fault
  | ok result =>
    exact closes_sendThen rfl rfl (by simp) (by simp) (closes_greetingSent after)

theorem closes_lastSent (outcome : Outcome) (failure : Option WriteError) :
    Ensures (Closes call) (lastSent call outcome failure) := by
  cases failure <;> exact closes_leave _

theorem closes_closeDocument (uri : Text) (outcome : Outcome) :
    Ensures (Closes call) (closeDocument call uri outcome) :=
  closes_sendThen rfl rfl (by simp) (by simp) (closes_lastSent outcome)

theorem closes_finishAnswer (use : AnswerUse) (outcome : Except Fault Json) :
    Ensures (Closes call) (finishAnswer call use outcome) := by
  cases use with
  | whole => exact closes_leave _
  | candidates => exact closes_leave _
  | candidatesOf uri => exact closes_closeDocument uri _

theorem closes_request (now : Int) (method : Text) (params : Json) (timeout : Option Int)
    (use : AnswerUse) : Ensures (Closes call) (request now call method params timeout use) :=
  ensures_look fun _ => closes_ask (fun _ => rfl) (fun _ => rfl) fun e =>
    closes_finishAnswer use (.error e.fault)

theorem closes_notify (method : Text) (params : Json) :
    Ensures (Closes call) (notify call method params) :=
  closes_sendThen rfl rfl (by simp) (by simp) (closes_lastSent _)

theorem closes_documentSent (now : Int) (q : Question) (failure : Option WriteError) :
    Ensures (Closes call) (documentSent now call q failure) := by
  cases failure with
  | some e => exact closes_leave _
  | none => exact closes_request now _ _ _ _

theorem closes_hoverContent (now : Int) (q : Question) (content : Text) :
    Ensures (Closes call) (hoverContent now call q content) :=
  closes_sendThen rfl rfl (by simp) (by simp) (closes_documentSent now q)

theorem closes_forgetProcess : Ensures (Closes call) (forgetProcess call) := by
  refine Ensures.followed (R := Keeps call) ?_ (fun _ => closes_leave _) Keeps.closes
  exact keeps_update (fun _ => rfl) (fun _ => rfl) (fun _ => rfl) fun _ => rfl

theorem closes_stopReader : Ensures (Closes call) (stopReader call) := by
  refine ensures_look fun c => ?_
  split
  · exact closes_forgetProcess
  · split
    · refine (keeps_unwrite _).followed (fun _ => ?_) Keeps.closes
      exact (keeps_endReader _ _).followed (fun _ => closes_wait none rfl) Keeps.closes
    · exact closes_leave _
    · exact closes_forgetProcess

theorem closes_kill : Ensures (Closes call) (kill call) := by
  refine ensures_look fun c => ?_
  split
  · exact closes_leave _
  · split
    · exact (closes_wait none rfl).closes_emit (actsFor_emit rfl rfl fun _ no => by cases no)
    · exact closes_stopReader

theorem closes_untold (e : WriteError) : Ensures (Closes call) (untold call e) := by
  cases e with
  | unknownProcess => exact closes_leave _
  | _ => exact closes_kill

theorem closes_farewellSent (now : Int) (failure : Option WriteError) :
    Ensures (Closes call) (farewellSent now call failure) := by
  cases failure with
  | some e => exact closes_untold e
  | none =>
    refine ensures_look fun c => ?_
    split
    · exact closes_leave _
    · exact closes_wait _ rfl

theorem closes_farewell (now : Int) (outcome : Except Fault Json) :
    Ensures (Closes call) (farewell now call outcome) := by
  cases outcome with
  | error fault => exact closes_kill
  | ok result => exact closes_sendThen rfl rfl (by simp) (by simp) (closes_farewellSent now)

theorem closes_shutDown (now : Int) : Ensures (Closes call) (shutDown now call) := by
  refine ensures_look fun c => ?_
  split
  · exact closes_leave _
  · split
    · exact closes_ask (fun _ => rfl) (fun _ => rfl) closes_untold
    · exact closes_stopReader

theorem closes_beginCall (now : Int) (what : Call) :
    Ensures (Closes call) (beginCall now call what) := by
  cases what with
  | start => exact closes_enqueue _
  | request method params timeout => exact closes_request now _ _ _ _
  | notify method params => exact closes_notify _ _
  | hover q => exact closes_request now _ _ _ _
  | hoverDocument q => exact closes_enqueue _
  | shutDown => exact closes_shutDown now

end

def Settles (call : Nat) (before after : World) : Prop :=
  Booked before.1 → Booked after.1 ∧ ActsFor call before after

section

variable {t : CallTask} {s : World}

theorem Settles.refl (call : Nat) (s : World) : Settles call s s :=
  fun booked => ⟨booked, .refl call s⟩

theorem Settles.trans {call : Nat} {s u v : World} (first : Settles call s u)
    (second : Settles call u v) : Settles call s v := by
  intro booked
  obtain ⟨between, acts⟩ := first booked
  obtain ⟨done, acts'⟩ := second between
  exact ⟨done, acts.trans acts'⟩

theorem settles_silent {a : Act Unit} (there : s.1.task? t.call = some t)
    (idle : s.1.isWriting (.call t.call) = false) (unasked : t.stage.request? = none)
    (closes : Ensures (Closes t.call) a) : Settles t.call s (a s).2 := by
  intro booked
  apply closes s
  apply booked.cleared idle
  intro u other
  obtain rfl := Option.some.inj (there.symm.trans other)
  exact unasked

theorem settles_forget {request : Nat} {a : Act Unit} (there : s.1.task? t.call = some t)
    (idle : s.1.isWriting (.call t.call) = false) (waits : t.stage.request? = some request)
    (closes : Ensures (Closes t.call) a) :
    Settles t.call s ((forget request >>= fun _ => a) s).2 := by
  intro booked
  have acts : ActsFor t.call s (forget request s).2 :=
    .silent rfl (Nat.le_refl _) (fun _ member => (List.mem_filter.mp member).1) rfl
      (readers_stay rfl) rfl
  obtain ⟨done, acts'⟩ := closes (forget request s).2 (booked.forgotten idle there waits)
  exact ⟨done, acts.trans acts'⟩

theorem settles_takeOutcome {request : Nat} {next : Except Fault Json → Act Unit}
    (there : s.1.task? t.call = some t) (idle : s.1.isWriting (.call t.call) = false)
    (waits : t.stage.request? = some request)
    (closes : ∀ outcome, Ensures (Closes t.call) (next outcome)) :
    Settles t.call s (takeOutcome request next s).2 := by
  unfold takeOutcome
  rw [bind_apply, read_apply]
  dsimp only
  cases s.1.outcome? request with
  | none => exact .refl _ _
  | some outcome => exact settles_forget there idle waits (closes outcome)

theorem settles_resume (now : Int) (there : s.1.task? t.call = some t)
    (idle : s.1.isWriting (.call t.call) = false) : Settles t.call s (resume now t s).2 := by
  obtain ⟨call, stage, deadline⟩ := t
  cases stage with
  | startTurn after => exact settles_silent there idle rfl (closes_takeTurn after)
  | handshake request after => exact settles_takeOutcome there idle rfl (closes_greeted after)
  | answer request method use => exact settles_takeOutcome there idle rfl (closes_finishAnswer use)
  | shutdownAnswer request => exact settles_takeOutcome there idle rfl (closes_farewell now)
  | exit process => exact settles_silent there idle rfl closes_stopReader
  | killedExit process => exact settles_silent there idle rfl closes_stopReader
  | readerEnd process => exact settles_silent there idle rfl closes_forgetProcess
  | _ => exact .refl call s

theorem settles_setDeadline (call : Nat) (deadline : Option Int) (s : World) :
    Settles call s (update (setDeadline call deadline) s).2 := by
  intro booked
  have tasks : (setDeadline call deadline s.1).tasks = s.1.tasks.map fun t =>
      if t.call == call then { t with deadline } else t := rfl
  have calls : (setDeadline call deadline s.1).tasks.map (·.call) = s.1.tasks.map (·.call) := by
    rw [tasks, List.map_map]
    refine List.map_congr_left fun t _ => ?_
    rw [Function.comp_apply]
    split <;> rfl
  have requests : openRequests (setDeadline call deadline s.1).tasks =
      openRequests s.1.tasks := by
    have same : ((fun t : CallTask => t.stage.request?) ∘ fun t =>
        if t.call == call then { t with deadline } else t) = fun t => t.stage.request? := by
      funext t
      rw [Function.comp_apply]
      split <;> rfl
    unfold openRequests
    rw [tasks, List.filterMap_map, same]
  have others : (withoutTask call (setDeadline call deadline s.1)).tasks =
      (withoutTask call s.1).tasks := by
    change ((setDeadline call deadline s.1).tasks).filter _ = s.1.tasks.filter _
    rw [tasks, List.filter_map]
    have same : ((fun t : CallTask => t.call != call) ∘ fun t =>
        if t.call == call then { t with deadline } else t) = fun t => t.call != call := by
      funext t
      rw [Function.comp_apply]
      split <;> rfl
    rw [same]
    have kept : (s.1.tasks.filter (·.call != call)).map (fun t =>
        if t.call == call then { t with deadline } else t) =
        (s.1.tasks.filter (·.call != call)).map id := by
      refine List.map_congr_left fun t member => ?_
      have apart : t.call ≠ call := by simpa using (List.mem_filter.mp member).2
      simp [apart]
    rw [kept, List.map_id]
  refine ⟨⟨booked.entries.trans requests.symm, booked.ascending, booked.counted,
    calls ▸ booked.distinct, booked.lined.congr rfl, booked.asks, booked.ordered, booked.known,
    fun other writing => ?_⟩,
    .silent others (Nat.le_refl _) (fun _ there => there) rfl (readers_stay rfl) rfl⟩
  obtain ⟨t, there, same, may⟩ := booked.awaited other writing
  refine ⟨if t.call == call then { t with deadline } else t, ?_, ?_, ?_⟩
  · exact tasks ▸ List.mem_map_of_mem there
  · split <;> exact same
  · split <;> exact may

theorem settles_wrote (now : Int) (limit : Option Int) (failure : Option WriteError)
    (there : s.1.task? t.call = some t) (idle : s.1.isWriting (.call t.call) = false) :
    Settles t.call s (wrote now t limit failure s).2 := by
  obtain ⟨call, stage, deadline⟩ := t
  cases stage with
  | greeting after => exact settles_silent there idle rfl (closes_greetingSent after failure)
  | opening q => exact settles_silent there idle rfl (closes_documentSent now q failure)
  | lastWrite outcome => exact settles_silent there idle rfl (closes_lastSent outcome failure)
  | farewell => exact settles_silent there idle rfl (closes_farewellSent now failure)
  | handshake request after =>
    cases failure with
    | none => exact settles_setDeadline call _ s
    | some e => exact settles_forget there idle rfl (closes_startFailed e.fault)
  | answer request method use =>
    cases failure with
    | none => exact settles_setDeadline call _ s
    | some e => exact settles_forget there idle rfl (closes_finishAnswer use _)
  | shutdownAnswer request =>
    cases failure with
    | none => exact settles_setDeadline call _ s
    | some e => exact settles_forget there idle rfl (closes_untold e)
  | _ => exact .refl call s

theorem settles_expire (there : s.1.task? t.call = some t)
    (idle : s.1.isWriting (.call t.call) = false) : Settles t.call s (expire t s).2 := by
  obtain ⟨call, stage, deadline⟩ := t
  cases stage with
  | handshake request after => exact settles_forget there idle rfl (closes_startFailed _)
  | answer request method use => exact settles_forget there idle rfl (closes_finishAnswer use _)
  | shutdownAnswer request => exact settles_forget there idle rfl closes_kill
  | exit process => exact settles_silent there idle rfl closes_kill
  | _ => exact .refl call s

theorem settles_cancel (there : s.1.task? t.call = some t)
    (idle : s.1.isWriting (.call t.call) = false) : Settles t.call s (cancel t s).2 := by
  obtain ⟨call, stage, deadline⟩ := t
  have passed : Ensures (Closes call) (passTurn call >>= fun _ => leave call .cancelled) :=
    keeps_passTurn.followed (fun _ => closes_leave _) Keeps.closes
  cases stage with
  | startTurn after => exact settles_silent there idle rfl passed
  | spawning after => exact settles_silent there idle rfl passed
  | greeting after => exact settles_silent there idle rfl passed
  | handshake request after => exact settles_forget there idle rfl passed
  | answer request method use =>
    cases use with
    | whole => exact settles_forget there idle rfl (closes_leave _)
    | candidates => exact settles_forget there idle rfl (closes_leave _)
    | candidatesOf uri => exact settles_forget there idle rfl (closes_closeDocument uri _)
  | shutdownAnswer request => exact settles_forget there idle rfl (closes_leave _)
  | readerEnd process => exact settles_silent there idle rfl closes_forgetProcess
  | _ => exact settles_silent there idle rfl (closes_leave _)

end

/-- The writes of a call get fewer or get on, and it may write what it has not written before. -/
theorem settles_writes {call : Nat} {s : World} {writes : List Writing} {new : List Effect}
    (lined : Lined s.1 → Lined (withWrites writes s.1))
    (others : (withWrites writes s.1).callWrites.filter (·.1 != .call call) =
      s.1.callWrites.filter (·.1 != .call call))
    (readers : (withWrites writes s.1).readerWrites = s.1.readerWrites)
    (own : ∀ entry ∈ (withWrites writes s.1).callWrites, entry.1 = .call call →
      ∃ old ∈ s.1.callWrites, old.1 = entry.1 ∧ old.2.1 = entry.2.1)
    (finishes : new.filterMap Effect.finished? = [])
    (replies : Booked s.1 → new.filterMap Effect.reply? = [])
    (made : (new.filterMap Effect.request? ++ (withWrites writes s.1).unwritten).Sublist
      s.1.unwritten) : Settles call s (withWrites writes s.1, s.2 ++ new) := by
  intro booked
  have fewer : (withWrites writes s.1).unwritten.Sublist s.1.unwritten :=
    (List.sublist_append_right _ _).trans made
  have entries : ∀ entry ∈ (withWrites writes s.1).callWrites,
      ∃ old ∈ s.1.callWrites, old.1 = entry.1 ∧ old.2.1 = entry.2.1 := by
    intro entry member
    by_cases mine : entry.1 = .call call
    · exact own entry member mine
    · have other : entry ∈ (withWrites writes s.1).callWrites.filter (·.1 != .call call) :=
        List.mem_filter.mpr ⟨member, bne_iff_ne.mpr mine⟩
      rw [others] at other
      exact ⟨entry, (List.mem_filter.mp other).1, rfl, rfl⟩
  refine ⟨⟨booked.entries, booked.ascending, booked.counted, booked.distinct, lined booked.lined,
    ?_, booked.ordered.sublist fewer, fun id member => booked.known id (fewer.subset member), ?_⟩,
    rfl, Nat.le_refl _, fun p there => .inr ⟨p, there, rfl, .inl rfl⟩, others, readers_stay readers,
    new, rfl, replies booked, by simp [finishes], [], by simpa using made, .nil, by simp⟩
  · intro entry member
    obtain ⟨old, there, _, payload⟩ := entries entry member
    rw [← payload]
    exact booked.asks old there
  · intro other writing
    obtain ⟨entry, member, same⟩ := isWriting_call_iff.mp writing
    obtain ⟨old, there, writer, _⟩ := entries entry member
    exact booked.awaited other (isWriting_call_iff.mpr ⟨old, there, writer.trans same⟩)

theorem settles_unwrite (call : Nat) (s : World) :
    Settles call s (update (unwrite (.call call)) s).2 := by
  have fewer : (unwrite (.call call) s.1).callWrites =
      s.1.callWrites.filter (·.1 != .call call) := callWrites_unwrite _ _
  have settles : Settles call s (withWrites (s.1.writes.filter (·.writer != .call call)) s.1,
      s.2 ++ []) := settles_writes (fun lined => lined.unwrite _) ?_ ?_ ?_ rfl (fun _ => rfl) ?_
  · rwa [List.append_nil] at settles
  · change (unwrite (.call call) s.1).callWrites.filter _ = _
    rw [fewer, List.filter_filter]
    simp
  · change (unwrite (.call call) s.1).readerWrites = _
    rw [readerWrites_unwrite, List.filter_eq_self]
    intro entry member
    obtain ⟨w, there, rfl⟩ := List.mem_map.mp member
    have reader := (List.mem_filter.mp there).2
    rw [bne_iff_ne]
    intro same
    have ofCall : w.writer = .call call := same
    simp [Writing.isCall, ofCall] at reader
  · intro entry member mine
    change entry ∈ (unwrite (.call call) s.1).callWrites at member
    rw [fewer] at member
    exact absurd mine (bne_iff_ne.mp (List.mem_filter.mp member).2)
  · change ([] ++ (unwrite (.call call) s.1).unwritten).Sublist _
    unfold unwritten
    rw [fewer, List.nil_append]
    exact List.filter_sublist.filterMap _

theorem isWriting_unwrite (writer : Writer) (c : Client) :
    (unwrite writer c).isWriting writer = false := by
  simp [isWriting, unwrite]

theorem callWrites_cons {c : Client} {w : Writing} {more : List Writing} {call : Nat}
    (writes : c.writes = w :: more) (own : w.writer = .call call) :
    c.callWrites = w.entry :: (withWrites more c).callWrites := by
  unfold callWrites
  rw [writes, List.filter_cons_of_pos (by simp [Writing.isCall, own])]
  rfl

theorem settles_advance {call : Nat} {s after : World} {w : Writing} {more : List Writing}
    {v : Option Writing} {new : List Effect} {sent : Sent}
    (advances : Advances (.call call) w more v new s sent after) : Settles call s after := by
  have lined := advances.lined
  obtain ⟨writes, own, rfl, goesOn, wrote, _, _, _⟩ := advances
  have before := callWrites_cons writes own
  have later : (withWrites (v.toList ++ more) s.1).callWrites =
      v.toList.map Writing.entry ++ (withWrites more s.1).callWrites := by
    cases v with
    | none => rfl
    | some x => exact callWrites_cons (c := withWrites (x :: more) s.1) rfl (goesOn x rfl).1
  have begun : (withWrites (v.toList ++ more) s.1).unwritten = (withWrites more s.1).unwritten := by
    unfold unwritten
    rw [later, List.filterMap_append]
    cases v with
    | none => rfl
    | some x =>
      obtain ⟨_, _, _, process, progress⟩ := goesOn x rfl
      simp [Writing.entry, progress]
  have mine : w.entry.1 = .call call := own
  have readers : (withWrites (v.toList ++ more) s.1).readerWrites = s.1.readerWrites := by
    unfold readerWrites
    rw [writes]
    cases v with
    | none => simp [withWrites, Writing.isCall, own]
    | some x => simp [withWrites, Writing.isCall, own, (goesOn x rfl).1]
  refine settles_writes lined ?_ readers ?_ ?_ ?_ ?_
  · rw [before, later, List.filter_append, List.filter_cons_of_neg (by simp [mine])]
    cases v with
    | none => rfl
    | some x =>
      have same : x.entry.1 = .call call := (goesOn x rfl).1
      simp [same]
  · intro entry member same
    rw [later] at member
    rw [before]
    rcases List.mem_append.mp member with head | rest
    · obtain ⟨x, there, rfl⟩ := List.mem_map.mp head
      obtain ⟨writer, payload, _⟩ := goesOn x (Option.mem_toList.mp there)
      exact ⟨w.entry, List.mem_cons_self, mine.trans same.symm, payload.symm⟩
    · exact ⟨entry, List.mem_cons_of_mem _ rest, rfl, rfl⟩
  · rcases wrote with ⟨rfl, _⟩ | ⟨_, process, _, rfl⟩ <;> rfl
  · intro booked
    rcases wrote with ⟨rfl, _⟩ | ⟨_, process, _, rfl⟩
    · rfl
    · exact reply?_written (booked.asks w.entry (before ▸ List.mem_cons_self))
  · rw [begun]
    unfold unwritten
    rw [before, List.filterMap_cons]
    rcases wrote with ⟨rfl, _⟩ | ⟨queued, process, _, rfl⟩
    · split
      · exact .refl _
      · exact .cons _ (.refl _)
    · have entry : w.entry = (w.writer, w.payload, w.limit, true) := by
        simp [Writing.entry, queued]
      rw [entry]
      simp only [List.filterMap_cons, List.filterMap_nil, Effect.request?, if_pos]
      cases Message.request? w.payload <;> exact .refl _

theorem goOnWriting_apply {now : Int} {t : CallTask} {s after : World} {sent : Sent}
    (resumed : resumeWrite (.call t.call) s = (sent, after)) :
    goOnWriting now t s = sent.elim (wrote now t (s.1.limit? (.call t.call)) none)
      (fun e => wrote now t (s.1.limit? (.call t.call)) (some e)) (pure ()) after := by
  unfold goOnWriting
  rw [bind_apply, read_apply]
  dsimp only
  rw [bind_apply, resumed]
  cases sent <;> rfl

theorem settles_goOnWriting (now : Int) {t : CallTask} {s : World}
    (there : s.1.task? t.call = some t) : Settles t.call s (goOnWriting now t s).2 := by
  intro booked
  obtain ⟨sent, after, resumes, resumed⟩ := resumeWrite_cases (.call t.call) s
  rw [goOnWriting_apply resumed]
  rcases resumes.advances with ⟨_, rfl, rfl⟩ | ⟨w, more, v, new, advances⟩
  · exact Settles.refl _ _ booked
  · have settled := settles_advance advances
    have still : after.1.task? t.call = some t := by
      rw [advances.result]
      exact there
    have free : sent ≠ .waits → after.1.isWriting (.call t.call) = false := by
      intro goesOn
      cases v with
      | none => exact advances.idle booked.lined
      | some x => exact absurd (advances.waits.mpr rfl) goesOn
    refine settled.trans ?_ booked
    cases sent with
    | done => exact settles_wrote now _ _ still (free (by simp))
    | failed e => exact settles_wrote now _ _ still (free (by simp))
    | waits => exact .refl _ _

theorem settles_withTask {call : Nat} {f : CallTask → Act Unit} {s : World}
    (holds : ∀ t, t.call = call → s.1.task? call = some t → Settles call s (f t s).2) :
    Settles call s (withTask call f s).2 := by
  cases there : s.1.task? call with
  | none =>
    rw [withTask_of_none there]
    exact .refl call s
  | some t =>
    rw [withTask_of_some there]
    exact holds t (task?_call there) there

end Client

def Event.call? : Event → Option Nat
  | .begin call _ | .spawned call _ | .document call _ | .resume call | .expired call
  | .cancelled call => some call
  | _ => none

def Event.begun? : Event → Option Nat
  | .begin call _ => some call
  | _ => none

theorem Event.call?_of_begun? {e : Event} {call : Nat} (begins : e.begun? = some call) :
    e.call? = some call := by
  cases e <;> first | exact begins | cases begins

theorem Event.begun?_eq_none {e : Event} {call : Nat} (about : e.call? = some call)
    (other : e.begun? ≠ some call) : e.begun? = none := by
  cases begins : e.begun? with
  | none => rfl
  | some number =>
    obtain rfl := Option.some.inj ((Event.call?_of_begun? begins).symm.trans about)
    exact absurd begins other

namespace Client

theorem Booked.unique {c : Client} {t u : CallTask} (booked : Booked c) (there : t ∈ c.tasks)
    (other : u ∈ c.tasks) (same : t.call = u.call) : t = u :=
  List.inj_on_of_nodup_map booked.distinct there other same

theorem Booked.absent {c : Client} {call : Nat} (booked : Booked c)
    (absent : c.task? call = none) : c.isWriting (.call call) = false := by
  cases writing : c.isWriting (.call call) with
  | false => rfl
  | true =>
    obtain ⟨t, member, same, _⟩ := booked.awaited call writing
    exact absurd same (task?_eq_none_iff.mp absent t member)

/-- Whoever waits for something other than the end of a write is not writing. -/
theorem Booked.idle {c : Client} {t : CallTask} (booked : Booked c)
    (there : c.task? t.call = some t) (not : t.stage.mayWrite = false) :
    c.isWriting (.call t.call) = false := by
  cases writing : c.isWriting (.call t.call) with
  | false => rfl
  | true =>
    obtain ⟨u, member, same, may⟩ := booked.awaited t.call writing
    obtain rfl := booked.unique member (mem_of_task? there) same
    rw [not] at may
    cases may

theorem settles_quiet {a : Act Unit} {t : CallTask} {s : World}
    (there : s.1.task? t.call = some t) (not : t.stage.mayWrite = false)
    (unasked : t.stage.request? = none) (closes : Ensures (Closes t.call) a) :
    Settles t.call s (a s).2 :=
  fun booked => settles_silent there (booked.idle there not) unasked closes booked

theorem step_settles (now : Int) {c : Client} {e : Event} {call : Nat} (about : e.call? = some call)
    (fresh : e.begun? = some call → c.task? call = none) :
    Settles call (c, []) (step now c e) := by
  cases e with
  | begin number what =>
    obtain rfl := Option.some.inj about
    intro booked
    have absent := fresh rfl
    apply closes_beginCall now what (c, [])
    exact booked.cleared (booked.absent absent) fun t there => by rw [absent] at there; cases there
  | spawned number failure =>
    obtain rfl := Option.some.inj about
    refine settles_withTask ?_
    rintro t rfl there
    obtain ⟨call, stage, deadline⟩ := t
    cases stage with
    | spawning after =>
      cases failure with
      | none => exact settles_quiet there rfl rfl (closes_greet now after)
      | some reason =>
        exact settles_quiet there rfl rfl (ensures_look fun _ => closes_startFailed _)
    | _ => exact .refl call _
  | document number content =>
    obtain rfl := Option.some.inj about
    refine settles_withTask ?_
    rintro t rfl there
    obtain ⟨call, stage, deadline⟩ := t
    cases stage with
    | reading q =>
      cases content with
      | ok content => exact settles_quiet there rfl rfl (closes_hoverContent now q content)
      | error fault => exact settles_quiet there rfl rfl (closes_leave _)
    | _ => exact .refl call _
  | resume number =>
    obtain rfl := Option.some.inj about
    refine settles_withTask ?_
    rintro t rfl there
    rw [bind_apply, read_apply]
    dsimp only
    split
    · split
      · exact settles_goOnWriting now there
      · rename_i idle
        exact settles_resume now there (by simpa using idle)
    · exact .refl _ _
  | expired number =>
    obtain rfl := Option.some.inj about
    refine settles_withTask ?_
    rintro t rfl there
    rw [bind_apply, read_apply]
    dsimp only
    split
    · exact .refl _ _
    · rename_i idle
      exact settles_expire there (by simpa using idle)
  | cancelled number =>
    obtain rfl := Option.some.inj about
    refine settles_withTask ?_
    rintro t rfl there
    rw [bind_apply, update_apply]
    exact (settles_unwrite t.call (c, [])).trans
      (settles_cancel (s := (unwrite (.call t.call) c, [])) there (isWriting_unwrite _ _))
  | _ => cases about

end Client

end TemplateTypes
