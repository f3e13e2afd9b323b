import TemplateTypes.Proofs.Server.Ledger

namespace TemplateTypes

open Text Message

namespace Client

def run (c : Client) : List (Int × Event) → World
  | [] => (c, [])
  | (now, e) :: more =>
    ((run (step now c e).1 more).1, (step now c e).2 ++ (run (step now c e).1 more).2)

def arrivals (c : Client) : List (Int × Event) → List Json
  | [] => []
  | (now, e) :: more => c.arrived e ++ arrivals (step now c e).1 more

def begun (events : List (Int × Event)) : List Nat := events.filterMap (·.2.begun?)

def BeginsNew (c : Client) (e : Event) : Prop := ∀ call, e.begun? = some call → c.task? call = none

theorem BeginsNew.later {c : Client} {e : Event} {call : Nat} {t : CallTask}
    (fresh : BeginsNew c e) (about : e.call? = some call) (there : c.task? call = some t) :
    e.begun? = none := by
  refine Event.begun?_eq_none about fun begins => ?_
  rw [fresh call begins] at there
  cases there

/-- The books are in order, and calls that begin have numbers of their own. -/
structure Orderly (c : Client) (events : List (Int × Event)) : Prop where
  booked : Booked c
  distinct : (begun events).Nodup
  unused : ∀ t ∈ c.tasks, t.call ∉ begun events

theorem begun_cons (now : Int) (e : Event) (more : List (Int × Event)) :
    begun ((now, e) :: more) = e.begun?.toList ++ begun more := by
  unfold begun
  rw [List.filterMap_cons]
  cases e.begun? <;> rfl

theorem begun_append (earlier later : List (Int × Event)) :
    begun (earlier ++ later) = begun earlier ++ begun later := List.filterMap_append

theorem Orderly.earlier {c : Client} {earlier later : List (Int × Event)}
    (orderly : Orderly c (earlier ++ later)) : Orderly c earlier := by
  obtain ⟨booked, distinct, unused⟩ := orderly
  rw [begun_append] at distinct unused
  exact ⟨booked, (List.nodup_append.mp distinct).1,
    fun t there begins => unused t there (List.mem_append_left _ begins)⟩

section

variable {c : Client} (now : Int) {e : Event}

theorem step_unknown {call : Nat} (about : e.call? = some call) (later : e.begun? = none)
    (absent : c.task? call = none) : step now c e = (c, []) := by
  have passes : ∀ f : CallTask → Act Unit, (withTask call f (c, [])).2 = (c, []) :=
    fun f => congrArg Prod.snd (withTask_of_none (s := (c, [])) absent)
  cases e with
  | begin number what => cases later
  | spawned number failure =>
    obtain rfl := Option.some.inj about
    exact passes _
  | document number content =>
    obtain rfl := Option.some.inj about
    exact passes _
  | resume number =>
    obtain rfl := Option.some.inj about
    exact passes _
  | expired number =>
    obtain rfl := Option.some.inj about
    exact passes _
  | cancelled number =>
    obtain rfl := Option.some.inj about
    exact passes _
  | _ => cases about

theorem heard_step (lined : Lined c) (about : e.call? = none) :
    Heard (c.arrived e) (c, []) (step now c e) := by
  cases e with
  | output process bytes => exact heard_output now c process bytes
  | outputEnded process => exact heard_outputEnded now c process
  | exited process => exact heard_exited now c process
  | input process state => exact heard_input now c process state
  | readerResumed process => exact heard_readerResumed now lined process
  | _ => cases about

theorem arrived_of_call {call : Nat} (about : e.call? = some call) : c.arrived e = [] := by
  cases e <;> first | rfl | cases about

theorem Heard.ids {arrived : List Json} {before after : World}
    (heard : Heard arrived before after) :
    after.1.pending.map (·.id) = before.1.pending.map (·.id) := by
  obtain ⟨handled, new, dealt⟩ := heard.heard
  rcases dealt.told with ⟨_, told⟩ | told <;> simp [told, tell]

theorem Heard.booked {arrived : List Json} {before after : World}
    (heard : Heard arrived before after) (booked : Booked before.1) : Booked after.1 :=
  booked.congr heard.ids heard.tasks (Nat.le_of_eq heard.lastRequest.symm) heard.calls heard.lined

theorem Heard.replied {arrived : List Json} {c : Client} {after : World}
    (heard : Heard arrived (c, []) after) {effect : Effect} (member : effect ∈ after.2) :
    ∃ process id, c.current = some process ∧ effect = .write process (reply id) := by
  obtain ⟨handled, new, dealt⟩ := heard.heard
  rw [dealt.effects, List.nil_append] at member
  exact dealt.replies effect member

theorem Heard.wrote {arrived : List Json} {c : Client} {after : World}
    (heard : Heard arrived (c, []) after) :
    after.2.filterMap Effect.request? = [] ∧ after.2.filterMap Effect.finished? = [] ∧
      after.2.filterMap Effect.reply? = after.2.filterMap Effect.payload? := by
  refine ⟨?_, ?_, ?_⟩
  · rw [List.filterMap_eq_nil_iff]
    intro effect member
    obtain ⟨process, id, _, rfl⟩ := heard.replied member
    simp [Effect.request?, Message.request?]
  · rw [List.filterMap_eq_nil_iff]
    intro effect member
    obtain ⟨process, id, _, rfl⟩ := heard.replied member
    rfl
  · refine List.filterMap_congr fun effect member => ?_
    obtain ⟨process, id, _, rfl⟩ := heard.replied member
    simp [Effect.reply?, Effect.payload?]

theorem booked_step (booked : Booked c) (fresh : BeginsNew c e) :
    Booked (step now c e).1 := by
  cases about : e.call? with
  | none => exact (heard_step now booked.lined about).booked booked
  | some call => exact (step_settles now about (fresh call) booked).1

theorem tasks_step (booked : Booked c) (fresh : BeginsNew c e)
    {t : CallTask} (there : t ∈ (step now c e).1.tasks) :
    e.begun? = some t.call ∨ ∃ u ∈ c.tasks, u.call = t.call := by
  cases about : e.call? with
  | none =>
    rw [(heard_step now booked.lined about).tasks] at there
    exact .inr ⟨t, there, rfl⟩
  | some call =>
    have acts := (step_settles now about (fresh call) booked).2
    by_cases mine : t.call = call
    · by_cases begins : e.begun? = some call
      · exact .inl (begins.trans (congrArg some mine.symm))
      · right
        have later := Event.begun?_eq_none about begins
        cases known : c.task? call with
        | none =>
          rw [step_unknown now about later known] at there
          exact ⟨t, there, rfl⟩
        | some u => exact ⟨u, mem_of_task? known, (task?_call known).trans mine.symm⟩
    · have other : t ∈ (withoutTask call (step now c e).1).tasks :=
        List.mem_filter.mpr ⟨there, by simpa using mine⟩
      rw [acts.others] at other
      exact .inr ⟨t, (List.mem_filter.mp other).1, rfl⟩

theorem Orderly.unknown {now : Int} {more : List (Int × Event)}
    (orderly : Orderly c ((now, e) :: more)) : BeginsNew c e := by
  intro call begins
  rw [task?_eq_none_iff]
  intro t there same
  refine orderly.unused t there ?_
  rw [begun_cons, begins, same]
  exact List.mem_cons_self

theorem Orderly.step {more : List (Int × Event)} (orderly : Orderly c ((now, e) :: more)) :
    Orderly (step now c e).1 more := by
  have distinct := orderly.distinct
  rw [begun_cons] at distinct
  obtain ⟨_, rest, apart⟩ := List.nodup_append.mp distinct
  refine ⟨booked_step now orderly.booked orderly.unknown, rest, fun t there again => ?_⟩
  rcases tasks_step now orderly.booked orderly.unknown there with begins | ⟨u, known, same⟩
  · exact apart t.call (by simp [begins]) t.call again rfl
  · refine orderly.unused u known ?_
    rw [begun_cons, same]
    exact List.mem_append_right _ again

/-- What is written and what is still to be written: the old requests in their order, then new
    ones. -/
theorem requests_step (booked : Booked c) (fresh : BeginsNew c e) :
    c.lastRequest ≤ (step now c e).1.lastRequest ∧
      ∃ new : List Nat,
        ((step now c e).2.filterMap Effect.request? ++ (step now c e).1.unwritten).Sublist
          (c.unwritten ++ new) ∧
        new.Pairwise (· < ·) ∧
        ∀ id ∈ new, c.lastRequest < id ∧ id ≤ (step now c e).1.lastRequest := by
  cases about : e.call? with
  | none =>
    have heard := heard_step now booked.lined about
    refine ⟨Nat.le_of_eq heard.lastRequest.symm, [], ?_, .nil, by simp⟩
    rw [heard.wrote.1, List.nil_append, List.append_nil, unwritten_congr heard.calls]
  | some call =>
    have acts := (step_settles now about (fresh call) booked).2
    obtain ⟨effects, wrote, _, _, new, made, sorted, bounds⟩ := acts.wrote
    have wrote : (step now c e).2 = effects := wrote
    exact ⟨acts.count, new, wrote ▸ made, sorted, bounds⟩

/-- Well-formed messages arrive, whoever is owed a reply can be written to, and no call keeps a
    reader from writing one. -/
def Served (c : Client) (now : Int) (e : Event) : Prop :=
  (∀ m ∈ c.arrived e, WellFormed m) ∧ (c.arrived e ≠ [] ∨ c.owed ≠ [] → c.isReachable = true) ∧
    (e.call?.isSome = true →
      ∀ write ∈ c.readerWrites, (step now c e).1.isWriting write.1 = true)

instance (c : Client) (now : Int) (e : Event) : Decidable (Served c now e) :=
  inferInstanceAs (Decidable (_ ∧ _ ∧ _))

theorem atMost_replies_step (booked : Booked c) (fresh : BeginsNew c e) :
    ((step now c e).2.filterMap Effect.reply? ++ (step now c e).1.owed).Sublist
      (c.owed ++ repliesTo (c.arrived e)) := by
  cases about : e.call? with
  | some call =>
    have acts := (step_settles now about (fresh call) booked).2
    obtain ⟨new, wrote, quiet, _⟩ := acts.wrote
    obtain ⟨keep, kept⟩ := acts.readers
    have wrote : (step now c e).2 = new := wrote
    rw [arrived_of_call about, wrote, quiet]
    unfold owed
    rw [kept]
    exact (List.filter_sublist.filterMap _).trans (List.sublist_append_left _ _)
  | none =>
    have heard := heard_step now booked.lined about
    obtain ⟨handled, new, dealt⟩ := heard.heard
    have wrote : (step now c e).2 = new := dealt.effects
    rw [heard.wrote.2.2, wrote]
    exact dealt.atMost.trans ((dealt.first.sublist.filterMap _).map _ |>.append_left _)

theorem replies_step (booked : Booked c) (fresh : BeginsNew c e) (served : Served c now e) :
    (step now c e).2.filterMap Effect.reply? ++ (step now c e).1.owed =
      c.owed ++ repliesTo (c.arrived e) := by
  obtain ⟨formed, can, stay⟩ := served
  have atMost := atMost_replies_step now booked fresh
  cases about : e.call? with
  | some call =>
    have acts := (step_settles now about (fresh call) booked).2
    obtain ⟨new, wrote, quiet, _⟩ := acts.wrote
    obtain ⟨keep, kept⟩ := acts.readers
    have wrote : (step now c e).2 = new := wrote
    -- Whoever still writes has not been kept from it.
    have all : (step now c e).1.readerWrites = c.readerWrites := by
      rw [kept, List.filter_eq_self]
      intro write there
      have writes := stay (by rw [about]; rfl) write there
      have ofReader : ∃ process, write.1 = .reader process := by
        obtain ⟨w, member, rfl⟩ := List.mem_map.mp there
        have reader := (List.mem_filter.mp member).2
        unfold Writing.isCall at reader
        change ∃ process, w.writer = .reader process
        cases writer : w.writer with
        | call number => simp [writer] at reader
        | reader process => exact ⟨process, rfl⟩
      obtain ⟨process, own⟩ := ofReader
      obtain ⟨w, member, same⟩ := isWriting_iff.mp writes
      have entry : w.entry ∈ (step now c e).1.readerWrites :=
        List.mem_map_of_mem (List.mem_filter.mpr ⟨member, by simp [Writing.isCall, same, own]⟩)
      rw [kept] at entry
      have keeps := (List.mem_filter.mp entry).2
      have writer : w.entry.1 = write.1 := same
      rwa [writer] at keeps
    rw [arrived_of_call about, wrote, quiet, owed_congr all]
    exact (List.append_nil _).symm
  | none =>
    have heard := heard_step now booked.lined about
    obtain ⟨handled, new, dealt⟩ := heard.heard
    have wrote : (step now c e).2 = new := dealt.effects
    by_cases due : c.arrived e ≠ [] ∨ c.owed ≠ []
    · obtain ⟨whole, all⟩ := dealt.atLeast (can due)
      rw [heard.wrote.2.2, wrote, ← all formed]
      exact whole
    · rw [not_or, not_not, not_not] at due
      rw [due.1, due.2] at atMost ⊢
      exact List.sublist_nil.mp atMost

end

theorem Orderly.run {c : Client} (earlier later : List (Int × Event))
    (orderly : Orderly c (earlier ++ later)) : Orderly (run c earlier).1 later := by
  induction earlier generalizing c with
  | nil => exact orderly
  | cons event more ih =>
    obtain ⟨now, e⟩ := event
    exact ih (orderly.step now)

theorem EachStep.append {P : Client → Int → Event → Prop} {c : Client}
    {earlier later : List (Int × Event)} (each : EachStep P c (earlier ++ later)) :
    EachStep P c earlier ∧ EachStep P (Client.run c earlier).1 later := by
  induction earlier generalizing c with
  | nil => exact ⟨trivial, each⟩
  | cons event more ih =>
    obtain ⟨first, rest⟩ := ih each.2
    exact ⟨⟨each.1, first⟩, rest⟩

theorem requests_run {c : Client} {events : List (Int × Event)} (orderly : Orderly c events) :
    c.lastRequest ≤ (run c events).1.lastRequest ∧
      ∃ new : List Nat,
        ((run c events).2.filterMap Effect.request? ++ (run c events).1.unwritten).Sublist
          (c.unwritten ++ new) ∧
        new.Pairwise (· < ·) ∧
        ∀ id ∈ new, c.lastRequest < id ∧ id ≤ (run c events).1.lastRequest := by
  induction events generalizing c with
  | nil => exact ⟨Nat.le_refl _, [], by simp [run], .nil, by simp⟩
  | cons event more ih =>
    obtain ⟨now, e⟩ := event
    obtain ⟨count, first, made, sorted, bounds⟩ :=
      requests_step now orderly.booked orderly.unknown
    obtain ⟨count', later, made', sorted', bounds'⟩ := ih (orderly.step now)
    unfold run
    dsimp only
    -- The later numbers are above the last one that the step has given.
    refine ⟨Nat.le_trans count count', first ++ later, ?_,
      List.pairwise_append.mpr ⟨sorted, sorted', fun id earlier id' next => ?_⟩, fun id member => ?_⟩
    · rw [List.filterMap_append, List.append_assoc]
      refine (made'.append_left _).trans ?_
      rw [← List.append_assoc, ← List.append_assoc]
      exact made.append_right _
    · have := (bounds id earlier).2
      have := (bounds' id' next).1
      omega
    · rcases List.mem_append.mp member with earlier | next
      · have := bounds id earlier
        omega
      · have := bounds' id next
        omega

theorem atMost_replies_run {c : Client} {events : List (Int × Event)} (orderly : Orderly c events) :
    ((run c events).2.filterMap Effect.reply? ++ (run c events).1.owed).Sublist
      (c.owed ++ repliesTo (arrivals c events)) := by
  induction events generalizing c with
  | nil => simp [run, arrivals, repliesTo]
  | cons event more ih =>
    obtain ⟨now, e⟩ := event
    have first := atMost_replies_step now orderly.booked orderly.unknown
    have later := ih (orderly.step now)
    unfold run arrivals
    dsimp only
    rw [List.filterMap_append, repliesTo_append, List.append_assoc, ← List.append_assoc c.owed]
    refine (later.append_left _).trans ?_
    rw [← List.append_assoc]
    exact first.append_right _

theorem replies_run {c : Client} {events : List (Int × Event)} (orderly : Orderly c events)
    (served : EachStep Served c events) :
    (run c events).2.filterMap Effect.reply? ++ (run c events).1.owed =
      c.owed ++ repliesTo (arrivals c events) := by
  induction events generalizing c with
  | nil => simp [run, arrivals, repliesTo]
  | cons event more ih =>
    obtain ⟨now, e⟩ := event
    have first := replies_step now orderly.booked orderly.unknown served.1
    have later := ih (orderly.step now) served.2
    unfold run arrivals
    dsimp only
    rw [List.filterMap_append, repliesTo_append, List.append_assoc, later, ← List.append_assoc,
      first, List.append_assoc]

/-- A settled request has the first answer to it, unless the reader has ended before. -/
def Told (first : Option (Except Fault Json)) : Option (Except Fault Json) → Prop
  | none => first = none
  | some (.ok result) => first = some (.ok result)
  | some (.error fault) => first = some (.error fault) ∨ fault = exitFault

/-- A request that a call waits for, `heard` since it was made. -/
structure InFlight (call request : Nat) (method : Text) (heard : List Json) (c : Client) :
    Prop where
  task : ∃ deadline, c.task? call = some ⟨call, .answer request method .whole, deadline⟩
  told : ∀ p ∈ c.pending, p.id = request → Told (firstAnswer request heard) p.outcome

structure Left (call request : Nat) (c : Client) : Prop where
  absent : c.task? call = none
  forgotten : request ∉ c.pending.map (·.id)
  given : request ≤ c.lastRequest

/-- How the call of a request ends if the answers that have come begin with `first`. -/
def Ending (call : Nat) (method : Text) (first : Option (Except Fault Json)) (c : Client)
    (e : Event) : Outcome → Prop
  | .value result => first = some (.ok result)
  | .failed fault =>
    first = some (.error fault) ∨ fault = exitFault ∨ fault = lateFault method ∧ e = .expired call ∨
      e = .resume call ∧ c.isWriting (.call call) = true ∧ ∃ w : WriteError, fault = w.fault
  | .cancelled => e = .cancelled call

section

variable {c : Client} (now : Int) {e : Event} {call request : Nat} {method : Text}
  {messages : List Json}

theorem InFlight.pending (flight : InFlight call request method messages c) (booked : Booked c) :
    request ∈ c.pending.map (·.id) := by
  obtain ⟨deadline, there⟩ := flight.task
  rw [booked.entries]
  exact List.mem_filterMap.mpr ⟨_, mem_of_task? there, rfl⟩

theorem Told.hear {first outcome : Option (Except Fault Json)} (told : Told first outcome)
    (more : Option (Except Fault Json)) : Told (first.or more) (outcome.or more) := by
  cases outcome with
  | none =>
    obtain rfl : first = none := told
    rcases more with _ | ⟨fault⟩ | ⟨result⟩
    · rfl
    · exact .inl rfl
    · rfl
  | some settled =>
    cases settled with
    | ok result =>
      obtain rfl : first = some (.ok result) := told
      rfl
    | error fault =>
      rcases told with rfl | ended
      · exact .inl rfl
      · exact .inr ended

theorem Told.failed {first outcome : Option (Except Fault Json)} (told : Told first outcome)
    (more : Option (Except Fault Json)) :
    Told (first.or more) (outcome.or (some (.error exitFault))) := by
  cases outcome with
  | none => exact .inr rfl
  | some settled =>
    cases settled with
    | ok result =>
      obtain rfl : first = some (.ok result) := told
      rfl
    | error fault =>
      rcases told with rfl | ended
      · exact .inl rfl
      · exact .inr ended

theorem InFlight.heard {arrived : List Json} {before after : World}
    (flight : InFlight call request method messages before.1) (reads : Heard arrived before after) :
    InFlight call request method (messages ++ arrived) after.1 := by
  obtain ⟨deadline, there⟩ := flight.task
  refine ⟨⟨deadline, ?_⟩, ?_⟩
  · unfold task? at there ⊢
    rw [reads.tasks]
    exact there
  · intro p member same
    obtain ⟨handled, new, dealt⟩ := reads.heard
    obtain ⟨rest, all⟩ := dealt.first
    rw [firstAnswer_append]
    rcases dealt.told with ⟨whole, told⟩ | told
    · rw [told] at member
      obtain ⟨q, old, rfl⟩ := List.mem_map.mp member
      obtain rfl : q.id = request := same
      rw [← whole]
      exact (flight.told q old rfl).hear _
    · rw [told] at member
      obtain ⟨q, old, rfl⟩ := List.mem_map.mp member
      obtain rfl : q.id = request := same
      rw [← all, firstAnswer_append, ← Option.or_assoc]
      dsimp only
      rw [← Option.or_assoc]
      exact ((flight.told q old rfl).hear _).failed _

theorem task?_withoutTask_self (call : Nat) (c : Client) :
    (withoutTask call c).task? call = none := by
  rw [task?_eq_none_iff]
  intro t member
  simpa using (List.mem_filter.mp member).2

theorem task?_wait (call : Nat) (stage : Stage) (deadline : Option Int) (s : World) :
    (wait call stage deadline s).2.1.task? call = some ⟨call, stage, deadline⟩ := by
  let t : CallTask := ⟨call, stage, deadline⟩
  change ((withoutTask call s.1).tasks ++ [t]).find? (·.call == call) = some t
  have others : (withoutTask call s.1).tasks.find? (·.call == call) = none :=
    task?_withoutTask_self call s.1
  rw [List.find?_append, others]
  simp [t]

theorem task?_withoutTask {other : Nat} (apart : call ≠ other) (c : Client) :
    (withoutTask other c).task? call = c.task? call := by
  unfold task? withoutTask
  rw [List.find?_filter]
  congr 1
  funext t
  by_cases mine : t.call = call
  · simp [mine, apart]
  · simp [mine]

theorem ActsFor.task? {other : Nat} {before after : World} (acts : ActsFor other before after)
    (apart : call ≠ other) : after.1.task? call = before.1.task? call := by
  rw [← task?_withoutTask apart after.1, ← task?_withoutTask apart before.1]
  unfold Client.task?
  rw [acts.others]

theorem InFlight.acts {other : Nat} {before after : World} (booked : Booked before.1)
    (flight : InFlight call request method messages before.1) (acts : ActsFor other before after)
    (apart : call ≠ other) : InFlight call request method messages after.1 := by
  obtain ⟨deadline, there⟩ := flight.task
  refine ⟨⟨deadline, (acts.task? apart).trans there⟩, fun p member same => ?_⟩
  have given : request ≤ before.1.lastRequest := booked.counted request (flight.pending booked)
  rcases acts.pending p member with young | ⟨q, old, id, outcome⟩
  · omega
  · have told := flight.told q old (id.trans same)
    rcases outcome with kept | ⟨unsettled, failed⟩
    · rw [kept]
      exact told
    · rw [failed]
      exact .inr rfl

structure Ends (call request : Nat) (method : Text) (messages : List Json) (before : Client)
    (e : Event) (after : World) : Prop where
  left : Left call request after.1
  finish : ∃ outcome, after.2 = [.finish call outcome] ∧
    Ending call method (firstAnswer request messages) before e outcome

theorem mem_of_outcome? (pending : request ∈ c.pending.map (·.id)) :
    ∃ p ∈ c.pending, p.id = request ∧ p.outcome = c.outcome? request := by
  unfold outcome?
  cases found : c.pending.find? (·.id == request) with
  | none =>
    obtain ⟨p, member, same⟩ := List.mem_map.mp pending
    have apart := List.find?_eq_none.mp found p member
    exact absurd (beq_iff_eq.mpr same) apart
  | some p => exact ⟨p, List.mem_of_find?_eq_some found, by simpa using List.find?_some found, rfl⟩

theorem outcome?_of_tell {d : Client} {answer : Nat → Option (Except Fault Json)}
    (known : request ∈ c.pending.map (·.id)) (told : d.pending = tell answer c.pending) :
    d.outcome? request = (c.outcome? request).or (answer request) := by
  unfold outcome?
  rw [told, tell, List.find?_map]
  change ((c.pending.find? (·.id == request)).map _).bind _ = _
  cases found : c.pending.find? (·.id == request) with
  | none =>
    obtain ⟨p, member, same⟩ := List.mem_map.mp known
    exact absurd (beq_iff_eq.mpr same) (List.find?_eq_none.mp found p member)
  | some p =>
    have same : p.id = request := by simpa using List.find?_some found
    rw [← same]
    rfl

theorem InFlight.outcome (booked : Booked c) (flight : InFlight call request method messages c) :
    Told (firstAnswer request messages) (c.outcome? request) := by
  obtain ⟨p, member, same, own⟩ := mem_of_outcome? (flight.pending booked)
  rw [← own]
  exact flight.told p member same

theorem InFlight.ends {before : Client} (booked : Booked c)
    (flight : InFlight call request method messages c) {outcome : Outcome}
    (ending : Ending call method (firstAnswer request messages) before e outcome) :
    Ends call request method messages before e
      (withoutTask call { c with pending := c.pending.filter (·.id != request) },
        [.finish call outcome]) := by
  refine ⟨⟨?_, ?_, booked.counted request (flight.pending booked)⟩, outcome, rfl, ending⟩
  · rw [task?_eq_none_iff]
    intro t member
    simpa using (List.mem_filter.mp member).2
  · intro member
    obtain ⟨p, kept, same⟩ := List.mem_map.mp member
    have apart := (List.mem_filter.mp kept).2
    rw [bne_iff_ne] at apart
    exact apart same

theorem InFlight.congr {d : Client} (flight : InFlight call request method messages c)
    (tasks : d.tasks = c.tasks) (pending : d.pending = c.pending) :
    InFlight call request method messages d := by
  obtain ⟨⟨deadline, there⟩, told⟩ := flight
  refine ⟨⟨deadline, ?_⟩, pending ▸ told⟩
  unfold task? at there ⊢
  rw [tasks]
  exact there

theorem task?_setDeadline (call : Nat) (deadline : Option Int) (c : Client) :
    (setDeadline call deadline c).task? call = (c.task? call).map ({ · with deadline }) := by
  unfold task? setDeadline
  dsimp only
  rw [List.find?_map]
  have same : ((fun t : CallTask => t.call == call) ∘ fun t =>
      if t.call == call then { t with deadline } else t) = fun t => t.call == call := by
    funext t
    rw [Function.comp_apply]
    split <;> rfl
  rw [same]
  cases found : c.tasks.find? (·.call == call) with
  | none => rfl
  | some t =>
    have own := List.find?_some found
    rw [Option.map_some, Option.map_some, if_pos own]

/-- A request that is being written goes on to wait, or cannot be written. -/
theorem InFlight.written (booked : Booked c) (flight : InFlight call request method messages c)
    (deadline : Option Int) (writing : c.isWriting (.call call) = true) :
    let after := (goOnWriting now ⟨call, .answer request method .whole, deadline⟩ (c, [])).2
    (InFlight call request method messages after.1 ∧ call ∉ after.2.filterMap Effect.finished?) ∨
      Ends call request method messages c (.resume call) after := by
  intro after
  let t : CallTask := ⟨call, .answer request method .whole, deadline⟩
  obtain ⟨sent, between, resumes, resumed⟩ := resumeWrite_cases (.call call) (c, [])
  have whole : after = (sent.elim (wrote now t (c.limit? (.call call)) none)
      (fun e => wrote now t (c.limit? (.call call)) (some e)) (pure ()) between).2 :=
    congrArg Prod.snd (goOnWriting_apply (t := t) (s := (c, [])) resumed)
  rw [whole]
  rcases resumes.advances with ⟨_, rfl, rfl⟩ | ⟨w, more, v, new, advances⟩
  · exact .inl ⟨flight, List.not_mem_nil⟩
  · have goesOn : InFlight call request method messages between.1 := by
      rw [advances.result]
      exact flight.congr rfl rfl
    have silent : call ∉ between.2.filterMap Effect.finished? := by
      rw [advances.result]
      rcases advances.wrote with ⟨rfl, _⟩ | ⟨_, process, _, rfl⟩ <;> exact List.not_mem_nil
    cases sent with
    | done =>
      left
      obtain ⟨deadline, task⟩ := goesOn.task
      let limit := (c.limit? (.call call)).map (now + ·)
      refine ⟨⟨⟨limit, ?_⟩, goesOn.told⟩, silent⟩
      exact (task?_setDeadline call limit between.1).trans (congrArg _ task)
    | failed e =>
      right
      have silent : between = (between.1, []) := by
        rw [advances.result, advances.fails e rfl]
        rfl
      have ending : Ending call method (firstAnswer request messages) c (.resume call)
          (.failed e.fault) := .inr (.inr (.inr ⟨rfl, writing, e, rfl⟩))
      rw [silent]
      exact goesOn.ends (settles_advance advances booked).1 ending
    | waits => exact .inl ⟨goesOn, silent⟩

theorem InFlight.own (booked : Booked c) (flight : InFlight call request method messages c)
    (about : e.call? = some call) (later : e.begun? = none) :
    (InFlight call request method messages (step now c e).1 ∧
        call ∉ (step now c e).2.filterMap Effect.finished?) ∨
      Ends call request method messages c e (step now c e) := by
  obtain ⟨deadline, there⟩ := flight.task
  let t : CallTask := ⟨call, .answer request method .whole, deadline⟩
  have acts : ∀ f : CallTask → Act Unit, (withTask call f (c, [])).2 = (f t (c, [])).2 :=
    fun f => congrArg Prod.snd (withTask_of_some (s := (c, [])) there)
  have unmoved : ∀ {after : World}, after = (c, []) →
      InFlight call request method messages after.1 ∧
        call ∉ after.2.filterMap Effect.finished? := by
    rintro after rfl
    exact ⟨flight, List.not_mem_nil⟩
  cases e with
  | begin number what => cases later
  | spawned number failure =>
    obtain rfl := Option.some.inj about
    exact .inl (unmoved (acts _))
  | document number content =>
    obtain rfl := Option.some.inj about
    exact .inl (unmoved (acts _))
  | resume number =>
    obtain rfl := Option.some.inj about
    have resumed : step now c (.resume number) = ((if c.isReady t then
        if c.isWriting (.call number) then goOnWriting now t
        else takeOutcome request (finishAnswer number .whole) else pure ()) (c, [])).2 := acts _
    rw [resumed]
    split
    · split
      · rename_i writing
        exact flight.written now booked deadline writing
      · unfold takeOutcome
        rw [bind_apply, read_apply]
        dsimp only
        cases settled : c.outcome? request with
        | none => exact .inl (unmoved rfl)
        | some outcome =>
          right
          have told := flight.outcome booked
          rw [settled] at told
          have ending : Ending number method (firstAnswer request messages) c (.resume number)
              (.ofExcept outcome) := by
            cases outcome with
            | ok result => exact told
            | error fault => exact told.imp_right .inl
          exact flight.ends booked ending
    · exact .inl (unmoved rfl)
  | expired number =>
    obtain rfl := Option.some.inj about
    have expired : step now c (.expired number) =
        ((if c.isWriting (.call number) then pure () else expire t) (c, [])).2 := acts _
    rw [expired]
    split
    · exact .inl (unmoved rfl)
    · right
      have ending : Ending number method (firstAnswer request messages) c (.expired number)
          (.failed (lateFault method)) := .inr (.inr (.inl ⟨rfl, rfl⟩))
      exact flight.ends booked ending
  | cancelled number =>
    obtain rfl := Option.some.inj about
    right
    have cancelled : step now c (.cancelled number) =
        (cancel t (unwrite (.call number) c, [])).2 := acts _
    have ending : Ending number method (firstAnswer request messages) c (.cancelled number)
        .cancelled := rfl
    rw [cancelled]
    have unwritten := (settles_unwrite number (c, []) booked).1
    exact (flight.congr (d := unwrite (.call number) c) rfl rfl).ends unwritten ending
  | _ => cases about

theorem inFlight_step (booked : Booked c) (fresh : BeginsNew c e)
    (flight : InFlight call request method messages c) :
    (InFlight call request method (messages ++ c.arrived e) (step now c e).1 ∧
        call ∉ (step now c e).2.filterMap Effect.finished?) ∨
      Ends call request method messages c e (step now c e) := by
  cases about : e.call? with
  | none =>
    have reads := heard_step now booked.lined about
    left
    rw [reads.wrote.2.1]
    exact ⟨flight.heard reads, List.not_mem_nil⟩
  | some other =>
    rw [arrived_of_call about, List.append_nil]
    by_cases mine : call = other
    · subst mine
      obtain ⟨deadline, there⟩ := flight.task
      exact flight.own now booked about (fresh.later about there)
    · have acts := (step_settles now about (fresh other) booked).2
      obtain ⟨new, wrote, _, finished, _⟩ := acts.wrote
      left
      refine ⟨flight.acts booked acts mine, fun ended => ?_⟩
      rw [wrote] at ended
      exact mine (finished call ended)

theorem absent_step (booked : Booked c) (fresh : BeginsNew c e) (absent : c.task? call = none)
    (other : e.begun? ≠ some call) : (step now c e).1.task? call = none ∧
      call ∉ (step now c e).2.filterMap Effect.finished? := by
  cases about : e.call? with
  | none =>
    have reads := heard_step now booked.lined about
    rw [reads.wrote.2.1]
    refine ⟨?_, List.not_mem_nil⟩
    unfold task? at absent ⊢
    rw [reads.tasks]
    exact absent
  | some number =>
    by_cases mine : call = number
    · subst mine
      rw [step_unknown now about (Event.begun?_eq_none about other) absent]
      exact ⟨absent, List.not_mem_nil⟩
    · have acts := (step_settles now about (fresh number) booked).2
      obtain ⟨new, wrote, _, finished, _⟩ := acts.wrote
      refine ⟨(acts.task? mine).trans absent, fun ended => ?_⟩
      rw [wrote] at ended
      exact mine (finished call ended)

theorem left_step (booked : Booked c) (fresh : BeginsNew c e)
    (ended : Left call request c) (other : e.begun? ≠ some call) :
    Left call request (step now c e).1 := by
  obtain ⟨absent, forgotten, given⟩ := ended
  have gone := (absent_step now booked fresh absent other).1
  cases about : e.call? with
  | none =>
    have reads := heard_step now booked.lined about
    exact ⟨gone, reads.ids ▸ forgotten, reads.lastRequest ▸ given⟩
  | some number =>
    by_cases mine : call = number
    · subst mine
      rw [step_unknown now about (Event.begun?_eq_none about other) absent]
      exact ⟨absent, forgotten, given⟩
    · have acts := (step_settles now about (fresh number) booked).2
      refine ⟨gone, fun member => ?_, Nat.le_trans given acts.count⟩
      obtain ⟨p, there, same⟩ := List.mem_map.mp member
      rcases acts.pending p there with young | ⟨q, old, id, _⟩
      · have young' : c.lastRequest < p.id := young
        omega
      · exact forgotten (List.mem_map.mpr ⟨q, old, id.trans same⟩)

theorem left_run {events : List (Int × Event)} (orderly : Orderly c events)
    (ended : Left call request c) (other : call ∉ begun events) :
    Left call request (run c events).1 := by
  induction events generalizing c with
  | nil => exact ended
  | cons event more ih =>
    obtain ⟨now, e⟩ := event
    rw [begun_cons, List.mem_append, not_or, Option.mem_toList] at other
    exact ih (orderly.step now) (left_step now orderly.booked orderly.unknown ended other.1) other.2

theorem inFlight_run {events : List (Int × Event)} (orderly : Orderly c events)
    (flight : InFlight call request method messages c) :
    (InFlight call request method (messages ++ arrivals c events) (run c events).1 ∧
        call ∉ (run c events).2.filterMap Effect.finished?) ∨
      (Left call request (run c events).1 ∧
        call ∈ (run c events).2.filterMap Effect.finished?) := by
  induction events generalizing c messages with
  | nil =>
    left
    unfold arrivals run
    rw [List.append_nil]
    exact ⟨flight, List.not_mem_nil⟩
  | cons event more ih =>
    obtain ⟨now, e⟩ := event
    have unused : call ∉ begun ((now, e) :: more) := by
      obtain ⟨deadline, there⟩ := flight.task
      exact orderly.unused _ (mem_of_task? there)
    rw [begun_cons, List.mem_append, not_or] at unused
    have orderlyNext := orderly.step now
    unfold arrivals run
    dsimp only
    rw [List.filterMap_append, List.mem_append, ← List.append_assoc]
    -- The request is in flight up to one step; from that on it has left, and its call ends once.
    rcases inFlight_step now orderly.booked orderly.unknown flight with ⟨goesOn, silent⟩ | ends
    · rcases ih orderlyNext goesOn with ⟨last, silentLater⟩ | ⟨last, finished⟩
      · exact .inl ⟨last, fun finished => finished.elim silent silentLater⟩
      · exact .inr ⟨last, .inr finished⟩
    · obtain ⟨outcome, finish, _⟩ := ends.finish
      refine .inr ⟨left_run orderlyNext ends.left unused.2, .inl ?_⟩
      rw [finish]
      exact List.mem_singleton_self call

theorem request_begins (booked : Booked c) (call : Nat) (method : Text) (params : Json)
    (timeout : Option Int) :
    let asked := step now c (.begin call (.request method params timeout))
    (c.isReachable = false ∧ ∃ e : WriteError, asked.2 = [.finish call (.failed e.fault)]) ∨
      ∃ process, c.current = some process ∧
        asked.2 = (if c.writes = [] then
          [.write process (Message.request (c.lastRequest + 1) method params)] else []) ∧
        InFlight call (c.lastRequest + 1) method [] asked.1 := by
  intro asked
  let id := c.lastRequest + 1
  let payload := Message.request id method params
  let limit := timeLimit c.setup timeout
  let made : World := (busier (some id) none c, [])
  obtain ⟨sent, after, sends, sent_eq⟩ := send_cases (.call call) payload (some limit) made
  have asks : asked = (sent.elim (wait call (.answer id method .whole) (some (now + limit)))
      (fun e => forget id >>= fun _ => finishAnswer call .whole (.error e.fault))
      (wait call (.answer id method .whole) none) after).2 :=
    congrArg Prod.snd (ask_apply (.answer · method .whole) (s := (c, [])) sent_eq)
  have flight : ∀ (d : Client) (effects : List Effect) (deadline : Option Int),
      d.tasks = c.tasks → d.pending = c.pending ++ [⟨id, none⟩] →
        InFlight call id method []
          (wait call (.answer id method .whole) deadline (d, effects)).2.1 := by
    intro d effects deadline tasks pending
    refine ⟨⟨deadline, task?_wait call _ deadline (d, effects)⟩, ?_⟩
    intro p member same
    change p ∈ d.pending at member
    rw [pending] at member
    rcases List.mem_append.mp member with old | new
    · have known : p.id ≤ c.lastRequest := booked.counted p.id (List.mem_map_of_mem old)
      omega
    · rw [List.mem_singleton.mp new]
      rfl
  have fails : ∀ e : WriteError, (finishAnswer call .whole (.error e.fault)
      (forget id made).2).2.2 = [.finish call (.failed e.fault)] := by
    intro e
    rw [forget_busier booked.counted]
    rfl
  have writes : (busier (some id) none c).writes = c.writes := List.append_nil _
  rw [asks]
  cases sends with
  | notRunning none =>
    have none : c.current = Option.none := none
    exact .inl ⟨by simp [isReachable, none], _, fails _⟩
  | lost process reason current free lost =>
    have current : c.current = some process := current
    have lost : c.input process = .lost reason := lost
    exact .inl ⟨by simp [isReachable, current, lost], _, fails _⟩
  | done process current free takes =>
    refine .inr ⟨process, current, ?_, flight _ _ _ rfl rfl⟩
    rw [if_pos (writes ▸ free)]
    rfl
  | drains process current free full =>
    refine .inr ⟨process, current, ?_, flight _ _ _ rfl rfl⟩
    rw [if_pos (writes ▸ free)]
    rfl
  | queues process current busy =>
    refine .inr ⟨process, current, ?_, flight _ _ _ rfl rfl⟩
    rw [if_neg (writes ▸ busy)]
    rfl

end

/-- What becomes of the next request of a client from the step on in which a call makes it. -/
inductive Requested (c : Client) (call : Nat) (method : Text) (params : Json) (asked : World)
    (since : List (Int × Event)) : Prop
  | refused (e : WriteError) (unreachable : c.isReachable = false)
    (wrote : asked.2 = [.finish call (.failed e.fault)])
  -- It is written at once unless other writes are under way.
  | made (process : Nat)
    (wrote : asked.2 = if c.writes = [] then
      [.write process (Message.request (c.lastRequest + 1) method params)] else [])
    (pending : c.lastRequest + 1 ∈ (run asked.1 since).1.pending.map (·.id) ↔
      call ∉ (run asked.1 since).2.filterMap Effect.finished?)
    (ends : ∀ earlier now e later outcome, since = earlier ++ (now, e) :: later →
      .finish call outcome ∈ (step now (run asked.1 earlier).1 e).2 →
        Ending call method (firstAnswer (c.lastRequest + 1) (arrivals asked.1 earlier))
          (run asked.1 earlier).1 e outcome)

theorem requested_of_begin {c : Client} {begins : Int} {call : Nat} {method : Text} {params : Json}
    {timeout : Option Int} {since : List (Int × Event)}
    (orderly : Orderly c ((begins, .begin call (.request method params timeout)) :: since)) :
    Requested c call method params
      (step begins c (.begin call (.request method params timeout))) since := by
  have orderlyNext := orderly.step begins
  have unused : call ∉ begun since := by
    have distinct := orderly.distinct
    rw [begun_cons] at distinct
    exact (List.nodup_cons.mp distinct).1
  rcases request_begins begins orderly.booked call method params timeout with
    ⟨unreachable, e, wrote⟩ | ⟨process, _, wrote, flight⟩
  · exact .refused e unreachable wrote
  · refine .made process wrote ?_ ?_
    · rcases inFlight_run orderlyNext flight with ⟨goesOn, silent⟩ | ⟨left, finished⟩
      · have ending := Orderly.run since [] (by rwa [List.append_nil])
        exact ⟨fun _ => silent, fun _ => goesOn.pending ending.booked⟩
      · exact ⟨fun member => absurd member left.forgotten, fun silent => absurd finished silent⟩
    · rintro earlier now e later outcome rfl finish
      have finished : call ∈ (step now (run _ earlier).1 e).2.filterMap Effect.finished? :=
        List.mem_filterMap.mpr ⟨_, finish, rfl⟩
      have orderlyThen := Orderly.run earlier _ orderlyNext
      rw [begun_append, begun_cons, List.mem_append, List.mem_append, not_or, not_or,
        Option.mem_toList] at unused
      -- A call that had ended earlier could not end in this step.
      rcases inFlight_run orderlyNext.earlier flight with
        ⟨goesOn, _⟩ | ⟨ended, _⟩
      · rcases inFlight_step now orderlyThen.booked orderlyThen.unknown goesOn with
          ⟨_, silent⟩ | ends
        · exact absurd finished silent
        · obtain ⟨own, wrote, ending⟩ := ends.finish
          rw [wrote, List.mem_singleton, Effect.finish.injEq] at finish
          rw [finish.2]
          exact ending
      · have silent :=
          absent_step now orderlyThen.booked orderlyThen.unknown ended.absent unused.2.1
        exact absurd finished silent.2

theorem handle_own {payload : Json} {id : Option Int} {error : Option Json} {result : Json}
    {outcome : Except Fault Json} (means : meaning payload = .ok (.response id error result))
    (told : responseOutcome error result = .ok outcome) (process : Nat) (s : World) :
    handle process payload s = (none, { s.1 with
      pending := s.1.pending.map fun p =>
        if id = some (p.id : Int) ∧ p.outcome = none then ⟨p.id, some outcome⟩ else p }, s.2) := by
  rw [handle_response process means told]
  have same : tell (answerTo · payload) s.1.pending = s.1.pending.map fun p =>
      if id = some (p.id : Int) ∧ p.outcome = none then ⟨p.id, some outcome⟩ else p := by
    apply List.map_congr_left
    intro p _
    obtain ⟨number, own⟩ := p
    have answer : answerTo number payload =
        if id = some (number : Int) then some outcome else none := by
      have ok : (Except.ok outcome : Except Fault (Except Fault Json)).toOption = some outcome :=
        rfl
      rcases id with _ | ⟨request⟩ | ⟨below⟩ <;>
        simp [answerTo, means, told, ok, Int.ofNat_inj]
    dsimp only
    rw [answer]
    cases own <;> by_cases mine : id = some (number : Int) <;> simp [mine]
  rw [same]

theorem booked_ofSetup (setup : ServerSetup) : Booked (ofSetup setup) := by
  refine ⟨rfl, .nil, by simp [ofSetup], .nil, ⟨.nil, by simp [ofSetup]⟩, ?_, .nil, ?_, ?_⟩
  all_goals simp [ofSetup, callWrites, unwritten, isWriting]

theorem orderly_ofSetup (setup : ServerSetup) {events : List (Int × Event)}
    (distinct : (begun events).Nodup) : Orderly (ofSetup setup) events :=
  ⟨booked_ofSetup setup, distinct, by simp [ofSetup]⟩

/-- Whatever calls are under way at once and whatever the server writes: no number is given to two
    requests, those pending are those that a call waits for, a call ends with the first answer to
    its own request or without one, an answer concerns no other request, and each question is
    replied to once. -/
theorem answers_reach_own_requests (setup : ServerSetup) (events : List (Int × Event))
    (distinct : (begun events).Nodup) :
    let ran := run (ofSetup setup) events
    (ran.2.filterMap Effect.request? ++ ran.1.unwritten).Pairwise (· < ·) ∧
      ran.1.pending.map (·.id) = openRequests ran.1.tasks ∧
      (∀ before begins call method params timeout since,
        events = before ++ (begins, .begin call (.request method params timeout)) :: since →
          let c := (run (ofSetup setup) before).1
          Requested c call method params
            (step begins c (.begin call (.request method params timeout))) since) ∧
      (∀ payload id error result, WellFormed payload →
        meaning payload = .ok (.response id error result) →
          ∃ outcome, ∀ process (s : World), handle process payload s = (none, { s.1 with
            pending := s.1.pending.map fun p =>
              if id = some (p.id : Int) ∧ p.outcome = none then ⟨p.id, some outcome⟩ else p },
            s.2)) ∧
      (ran.2.filterMap Effect.reply? ++ ran.1.owed).Sublist
        (repliesTo (arrivals (ofSetup setup) events)) ∧
      (EachStep Served (ofSetup setup) events →
        ran.2.filterMap Effect.reply? ++ ran.1.owed =
          repliesTo (arrivals (ofSetup setup) events)) := by
  intro ran
  have orderly := orderly_ofSetup setup distinct
  have ending : Orderly ran.1 [] := Orderly.run events [] (by rwa [List.append_nil])
  obtain ⟨_, new, made, sorted, _⟩ := requests_run orderly
  refine ⟨sorted.sublist made, ending.booked.entries, ?_, ?_, atMost_replies_run orderly,
    replies_run orderly⟩
  · rintro before begins call method params timeout since rfl
    exact requested_of_begin (Orderly.run before _ orderly)
  · intro payload id error result formed means
    rcases formed.cases with nothing | ⟨_, question⟩ | ⟨_, _, _, outcome, response, told⟩
    · rw [means] at nothing
      cases nothing
    · rw [means] at question
      cases question
    · rw [means] at response
      cases response
      exact ⟨outcome, handle_own means told⟩

/-- Of two requests the second is answered first, and twice; the other is answered too late. -/
theorem answers_reach_own_requests_crossed :
    let answer (id : Nat) (result : String) : Bytes :=
      Frame.encode (.object [("id", .int id), ("result", .text result)])
    let question : Bytes := Frame.encode (.object [("id", .text "q"), ("method", .text "m")])
    let events : List (Int × Event) :=
      [(0, .begin 0 .start), (0, .spawned 0 none), (1, .output 0 (answer 1 "a")), (1, .resume 0),
        (2, .begin 1 (.request ['m'] .null none)), (3, .begin 2 (.request ['n'] .null none)),
        (4, .output 0 (answer 3 "b" ++ question ++ answer 3 "c")), (5, .resume 2),
        (20000000, .expired 1), (20000001, .output 0 (answer 2 "d"))]
    let ran := run (ofSetup ⟨[['s']], ⟨['/'], []⟩, 1, 10000000, 100⟩) events
    (begun events).Nodup ∧ ran.2.filterMap Effect.request? = [1, 2, 3] ∧
      ran.2.filterMap Effect.finished? = [0, 2, 1] ∧
      (ran.2.filterMap Effect.reply?).length = 1 ∧
      ran.1.pending.map (·.id) = openRequests ran.1.tasks := by
  intro answer question events ran
  have distinct : (begun events).Nodup := by decide
  have served : EachStep Served (ofSetup ⟨[['s']], ⟨['/'], []⟩, 1, 10000000, 100⟩) events := by
    decide +kernel
  obtain ⟨_, pending, _, _, _, replied⟩ :=
    answers_reach_own_requests ⟨[['s']], ⟨['/'], []⟩, 1, 10000000, 100⟩ events distinct
  refine ⟨distinct, by decide +kernel, by decide +kernel, ?_, pending⟩
  have nothing : ran.1.owed = [] := by decide +kernel
  have all := replied served
  rw [nothing, List.append_nil] at all
  rw [all]
  decide +kernel

end Client

end TemplateTypes
