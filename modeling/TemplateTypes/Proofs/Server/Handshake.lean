import TemplateTypes.Proofs.Server.Consulting
import TemplateTypes.Proofs.Server.Sessions

namespace TemplateTypes

open Text Message

namespace Message

def isOfDocument (payload : Json) : Bool :=
  match payload.member? "method".toList with
  | some (.str method) => "textDocument/".toList.isPrefixOf method
  | _ => false

theorem isOfDocument_object (members : List (String × Json)) :
    isOfDocument (.object members) = match members.lookup "method" with
      | some (.str method) => "textDocument/".toList.isPrefixOf method
      | _ => false := by
  rw [isOfDocument, Json.member?_object]

@[simp]
theorem isOfDocument_request (id : Nat) (method : Text) (params : Json) :
    isOfDocument (request id method params) = "textDocument/".toList.isPrefixOf method := by
  rw [request, isOfDocument_object]
  simp [version, List.lookup_cons]

@[simp]
theorem isOfDocument_notification (method : Text) (params : Json) :
    isOfDocument (notification method params) = "textDocument/".toList.isPrefixOf method := by
  rw [notification, isOfDocument_object]
  simp [version, List.lookup_cons]

@[simp]
theorem isOfDocument_reply (id : Json) : isOfDocument (reply id) = false := by
  rw [reply, isOfDocument_object]
  simp [version, List.lookup_cons]

end Message

namespace Client

/-- What has happened to a client: what it has wanted done, and what each process has said. -/
structure Past where
  client : Client
  effects : List Effect
  said : Nat → List Json

namespace Past

def ofSetup (setup : ServerSetup) : Past := ⟨.ofSetup setup, [], fun _ => []⟩

def next (h : Past) (now : Int) (e : Event) : Past where
  client := (step now h.client e).1
  effects := h.effects ++ (step now h.client e).2
  said process :=
    h.said process ++ if e.process? = some process then h.client.arrived e else []

def after (h : Past) : List (Int × Event) → Past
  | [] => h
  | (now, e) :: more => (h.next now e).after more

end Past

/-- The process has answered the request to initialize, and has been told that it is done. -/
def Greeted (effects : List Effect) (said : List Json) (process : Nat) : Prop :=
  ∃ id params, .write process (Message.request id initializeMethod params) ∈ effects ∧
    (firstAnswer id said).isSome = true ∧ .write process Message.initialized ∈ effects

/-- Processes are greeted before the event at which a message about a document is written to
    them. -/
def GreetedFirst (h : Past) (now : Int) (e : Event) : Prop :=
  ∀ process payload, .write process payload ∈ (step now h.client e).2 →
    isOfDocument payload = true → Greeted h.effects (h.said process) process

/-- There is no call that consults the current process about a document before it is greeted, unless
    nothing can be written to the process any more. -/
def Poised (h : Past) : Prop :=
  ∀ t ∈ h.client.tasks, t.stage.isHovering = true → h.client.isReachable = true →
    ∀ process, h.client.current = some process → Greeted h.effects (h.said process) process

/-- A process is spawned only when none is read any more, the client is not ready, and the server
    has been started for no call that goes on. -/
def SpawnsAfresh (c : Client) (_ : Int) (e : Event) : Prop :=
  c.spawnsFor e = true → (∀ p ∈ c.processes, p.reader.isOver = true) ∧ c.initialized = false ∧
    ∀ t ∈ c.tasks, t.stage.isHovering = false

instance (c : Client) (now : Int) (e : Event) : Decidable (SpawnsAfresh c now e) :=
  inferInstanceAs (Decidable (c.spawnsFor e = true →
    (∀ p ∈ c.processes, p.reader.isOver = true) ∧ c.initialized = false ∧
      ∀ t ∈ c.tasks, t.stage.isHovering = false))

theorem Greeted.more {effects : List Effect} {said : List Json} {process : Nat}
    (greeted : Greeted effects said process) (later : List Effect) (more : List Json) :
    Greeted (effects ++ later) (said ++ more) process := by
  obtain ⟨id, params, asked, answered, told⟩ := greeted
  refine ⟨id, params, List.mem_append_left _ asked, ?_, List.mem_append_left _ told⟩
  rw [firstAnswer_append]
  simp [answered]

section

variable {h : Past} {now : Int} {e : Event} {call : Nat}

theorem Heard.not_isOfDocument {arrived : List Json} {c : Client} {after : World}
    (heard : Heard arrived (c, []) after) {process : Nat} {payload : Json}
    (wrote : .write process payload ∈ after.2) : isOfDocument payload = false := by
  obtain ⟨_, id, _, same⟩ := heard.replied wrote
  obtain ⟨_, rfl⟩ := Effect.write.inj same
  exact isOfDocument_reply id

theorem isOfDocument_initialized : isOfDocument Message.initialized = false := by
  rw [Message.initialized, isOfDocument_notification]
  rfl

theorem isOfDocument_greeting (id : Nat) (params : Json) :
    isOfDocument (Message.request id initializeMethod params) = false := by
  rw [isOfDocument_request]
  rfl

/-- What greets a server is not about a document. -/
theorem not_isOfDocument_of_hasTurn {c : Client} {t : CallTask} {payload : Json}
    {limit : Option Int} {queued : Bool} (told : Tells c t) (turn : t.stage.hasTurn = true)
    (may : t.stage.mayWrite = true)
    (writes : c.callWrite? t.call = some (.call t.call, payload, limit, queued)) :
    isOfDocument payload = false := by
  unfold Tells at told
  rw [writes] at told
  obtain ⟨call, stage, deadline⟩ := t
  cases stage with
  | handshake request a =>
    obtain ⟨params, rfl⟩ := told payload rfl
    exact isOfDocument_greeting request params
  | greeting a =>
    obtain rfl : payload = Message.initialized := Option.some.inj told
    exact isOfDocument_initialized
  | spawning a => cases may
  | _ => cases turn

theorem Advance.consults {c : Client} {after : World} (advance : Advance now c call e after)
    (consulted : Consulted c) {process : Nat} {payload : Json}
    (wrote : .write process payload ∈ after.2) (document : isOfDocument payload = true) :
    c.current = some process ∧ c.isReachable = true ∧
      ∃ t ∈ c.tasks, t.stage.isHovering = true := by
  have plain : isOfDocument payload = false → False := fun not => by
    rw [not] at document
    cases document
  cases advance with
  | idle unmoved same =>
    rw [same] at wrote
    cases wrote
  | queues a begins turn calm queue pending effects =>
    rw [effects] at wrote
    cases wrote
  | spawns a turns turn unready calm queue effects => simp [effects] at wrote
  | starts a turns turn ready calm queue effects =>
    rw [effects, List.mem_singleton] at wrote
    exact absurd wrote.symm (a.effect_ne_write call process payload)
  | greets a accepted deadline there shifted queue idle processes current initialized pending
      effects =>
    rw [effects, List.mem_singleton] at wrote
    obtain ⟨_, rfl⟩ := Effect.write.inj wrote
    exact (plain (isOfDocument_greeting _ _)).elim
  | greeted a request deadline there idle result answered own current takes shifted queue processes
      same ready effects =>
    rw [effects] at wrote
    rcases List.mem_cons.mp wrote with first | second
    · obtain ⟨_, rfl⟩ := Effect.write.inj first
      exact (plain isOfDocument_initialized).elim
    · exact absurd (List.mem_singleton.mp second).symm (a.effect_ne_write call process payload)
  | startFails outcome starting failure calm queue effects => simp [effects] at wrote
  | opens q content deadline there own current takes later calm queue effects =>
    have same : process = own := by
      rw [effects] at wrote
      rcases List.mem_cons.mp wrote with first | second
      · exact (Effect.write.inj first).1
      · exact (Effect.write.inj (List.mem_singleton.mp second)).1
    subst same
    exact ⟨current, isReachable_of_taking current takes, _, mem_of_task? there, rfl⟩
  | closes request method uri deadline there own current takes outcome calm queue effects =>
    have same : process = own := by
      rw [effects] at wrote
      rcases List.mem_cons.mp wrote with first | second
      · exact (Effect.write.inj first).1
      · exact Effect.noConfusion (List.mem_singleton.mp second)
    subst same
    exact ⟨current, isReachable_of_taking current takes, _, mem_of_task? there, rfl⟩
  | hoverFails t there hovering stopped outcome calm queue effects => simp [effects] at wrote
  | drags slow drags =>
    cases drags with
    | greets a accepted deadline there shifted queue processes current initialized params limit
        later effects =>
      rw [effects] at wrote
      cases wrote
    | tells a request deadline there idle result answered calm queue limit queued later hands =>
      obtain ⟨rfl, _⟩ := hands.wrote wrote
      exact (plain isOfDocument_initialized).elim
    | writes t there turn deadline stays queue written limit queued before later hands =>
      obtain ⟨rfl, _⟩ := hands.wrote wrote
      obtain rfl := task?_call there
      refine (plain (not_isOfDocument_of_hasTurn (consulted.told t (mem_of_task? there)) turn ?_
        before)).elim
      cases may : t.stage.mayWrite with
      | true => rfl
      | false =>
        rw [callWrite?_eq_none_iff.mpr (consulted.booked.idle there may)] at before
        cases before
    | greeted a deadline there shifted queue processes current ready written limit queued before new
        hands effects =>
      rw [effects] at wrote
      rcases List.mem_append.mp wrote with first | second
      · obtain ⟨rfl, _⟩ := hands.wrote first
        exact (plain (not_isOfDocument_of_hasTurn (consulted.told _ (mem_of_task? there)) rfl rfl
          before)).elim
      · exact absurd (List.mem_singleton.mp second).symm (a.effect_ne_write call process payload)
    | dwells t there hovering own dwells =>
      obtain ⟨current, reachable⟩ := dwells.wrote process payload wrote
      exact ⟨current, reachable, t, mem_of_task? there, hovering⟩

theorem greetedFirst_of_poised (consulted : Consulted h.client) (poised : Poised h)
    (consults : e.isConsulting = true) (fresh : BeginsNew h.client e) : GreetedFirst h now e := by
  intro process payload wrote document
  cases about : e.call? with
  | none =>
    have heard := heard_step now consulted.booked.lined about
    rw [heard.not_isOfDocument wrote] at document
    cases document
  | some call =>
    obtain ⟨current, reachable, t, member, hovering⟩ :=
      (consulted.advance now consults fresh about).consults consulted wrote document
    exact poised t member hovering reachable process current

/-- What is written to a process that is not lost, and to which nothing else is being written, is
    handed to it at once. -/
theorem sends_of_free {writer : Writer} {payload : Json} {limit : Option Int} {s after : World}
    {sent : Sent} {process : Nat} (sends : Sends writer payload limit s sent after)
    (free : s.1.writes = []) (own : s.1.current = some process)
    (reachable : s.1.isReachable = true) :
    s.1.input process = .taking ∨ sent = .waits ∧ after.2 = s.2 ++ [.write process payload] := by
  cases sends with
  | notRunning none => cases none.symm.trans own
  | lost other reason current _ lost => simp [isReachable, current, lost] at reachable
  | done other current _ takes =>
    obtain rfl := Option.some.inj (current.symm.trans own)
    exact .inl takes
  | drains other current _ full =>
    obtain rfl := Option.some.inj (current.symm.trans own)
    exact .inr ⟨rfl, rfl⟩
  | queues other current busy => exact absurd free busy

theorem written_of_reading {c : Client} {q : Question} {deadline : Option Int} {process : Nat}
    (there : c.task? call = some ⟨call, .reading q, deadline⟩) (free : c.writes = [])
    (own : c.current = some process) (reachable : c.isReachable = true) :
    .write process (opened q.uri []) ∈ (step 0 c (.document call (.ok []))).2 := by
  have stepped : step 0 c (.document call (.ok [])) = (hoverContent 0 call q [] (c, [])).2 :=
    congrArg Prod.snd (withTask_of_some (s := (c, [])) there)
  obtain ⟨sent, after, sends, sent_eq⟩ := send_cases (.call call) (opened q.uri []) none (c, [])
  rw [stepped]
  rcases sends_of_free sends free own reachable with takes | ⟨rfl, wrote⟩
  · rw [hoverContent_taken free own takes]
    exact List.mem_cons_self
  · have opens : hoverContent 0 call q [] (c, []) = wait call (.opening q) none after :=
      sendThen_apply sent_eq
    rw [opens]
    exact wrote ▸ List.mem_cons_self

theorem written_of_answer {c : Client} {request : Nat} {method uri : Text} {deadline : Option Int}
    {process : Nat}
    (there : c.task? call = some ⟨call, .answer request method (.candidatesOf uri), deadline⟩)
    (free : c.writes = []) (own : c.current = some process) (reachable : c.isReachable = true) :
    .write process (closed uri) ∈ (step 0 c (.cancelled call)).2 := by
  let d : Client := { unwrite (.call call) c with pending := c.pending.filter (·.id != request) }
  have stepped : step 0 c (.cancelled call) = (closeDocument call uri .cancelled (d, [])).2 :=
    congrArg Prod.snd (withTask_of_some (s := (c, [])) there)
  have empty : d.writes = [] := by simp [d, unwrite, free]
  obtain ⟨sent, after, sends, sent_eq⟩ := send_cases (.call call) (closed uri) none (d, [])
  have closes : closeDocument call uri .cancelled (d, []) =
      sent.elim (lastSent call .cancelled none) (fun e => lastSent call .cancelled (some e))
        (wait call (.lastWrite .cancelled) none) after := sendThen_apply sent_eq
  rw [stepped, closes]
  rcases sends_of_free sends empty own reachable with takes | ⟨rfl, wrote⟩
  · have taken : send (.call call) (closed uri) none (d, []) = (.done, d, [.write process _]) :=
      send_taken empty own takes
    rw [sent_eq] at taken
    obtain ⟨rfl, rfl⟩ := Prod.mk.inj taken
    exact List.mem_cons_self
  · exact wrote ▸ List.mem_cons_self

theorem poised_of_greetedFirst (consulted : Consulted h.client) (free : h.client.writes = [])
    (first : ∀ now e, e.isConsulting = true → BeginsNew h.client e → GreetedFirst h now e) :
    Poised h := by
  intro t member hovering reachable process current
  have there : h.client.task? t.call = some t := task?_of_mem consulted.booked member
  have told := consulted.told t member
  have unwriting : h.client.callWrite? t.call = none := by simp [callWrite?_eq_map, free]
  unfold Tells at told
  rw [unwriting] at told
  obtain ⟨call, stage, deadline⟩ := t
  cases stage with
  | reading q =>
    refine first 0 (.document call (.ok [])) rfl (fun _ begins => by cases begins) process
      (opened q.uri []) (written_of_reading there free current reachable) ?_
    rw [opened, isOfDocument_notification]
    rfl
  | answer request method use =>
    cases use with
    | candidatesOf uri =>
      refine first 0 (.cancelled call) rfl (fun _ begins => by cases begins) process
        (closed uri) (written_of_answer there free current reachable) ?_
      rw [closed, isOfDocument_notification]
      rfl
    | _ => cases hovering
  | opening q => cases told
  | lastWrite outcome => cases told
  | _ => cases hovering

end

/-- The message has been written to the process, or is the next that the call writes. -/
def Past.Utters (h : Past) (call process : Nat) (payload : Json) : Prop :=
  .write process payload ∈ h.effects ∨
    ∃ limit, h.client.callWrite? call = some (.call call, payload, limit, true)

/-- A call that greets a server greets the current one. -/
def Past.Asks (h : Past) (t : CallTask) : Prop :=
  match t.stage with
  | .handshake request _ => ∃ process params, h.client.current = some process ∧
    h.Utters t.call process (Message.request request initializeMethod params) ∧
    ∀ result, h.client.outcome? request = some (.ok result) →
      (firstAnswer request (h.said process)).isSome = true
  | .greeting _ => ∃ process id params, h.client.current = some process ∧
    .write process (Message.request id initializeMethod params) ∈ h.effects ∧
    (firstAnswer id (h.said process)).isSome = true ∧ h.Utters t.call process Message.initialized
  | _ => True

/-- The current process has been greeted if the client is ready or a call consults it. -/
structure Welcomes (h : Past) : Prop where
  asked : ∀ t ∈ h.client.tasks, h.Asks t
  greeted : (h.client.initialized = true ∨ ∃ t ∈ h.client.tasks, t.stage.isHovering = true) →
    ∀ process, h.client.current = some process → Greeted h.effects (h.said process) process


section

variable {h : Past} {now : Int} {e : Event} {call : Nat}

theorem Past.next_of_call (h : Past) (now : Int) (about : e.call? = some call) :
    h.next now e = ⟨(step now h.client e).1, h.effects ++ (step now h.client e).2, h.said⟩ := by
  have silent : e.process? = none := by cases e <;> first | rfl | cases about
  simp [Past.next, silent]

theorem Past.Utters.later {process : Nat} {payload : Json} (utters : h.Utters call process payload)
    {d : Client} {new : List Effect} {said : Nat → List Json}
    (same : d.callWrite? call = h.client.callWrite? call) :
    Past.Utters ⟨d, h.effects ++ new, said⟩ call process payload := by
  rcases utters with written | ⟨limit, queued⟩
  · exact .inl (List.mem_append_left _ written)
  · exact .inr ⟨limit, same.trans queued⟩

/-- A call that has handed over what it had to write has written it. -/
theorem Past.Utters.handed {process : Nat} {payload written : Json} {limit : Option Int}
    {queued : Bool} {new : List Effect} (utters : h.Utters call process payload)
    (current : h.client.current = some process)
    (before : h.client.callWrite? call = some (.call call, written, limit, queued))
    (hands : Hands h.client written queued new) : .write process payload ∈ h.effects ++ new := by
  rcases utters with done | ⟨limit, due⟩
  · exact List.mem_append_left _ done
  · cases before.symm.trans due
    obtain ⟨other, own, _, rfl⟩ := hands
    obtain rfl := Option.some.inj (own.symm.trans current)
    exact List.mem_append_right _ (List.mem_singleton_self _)

theorem Past.Utters.written {process : Nat} {payload : Json} (utters : h.Utters call process payload)
    (idle : h.client.callWrite? call = none) : .write process payload ∈ h.effects := by
  rcases utters with written | ⟨limit, queued⟩
  · exact written
  · cases idle.symm.trans queued

theorem asks_of_not_hasTurn {t : CallTask} (passed : t.stage.hasTurn = false) : h.Asks t := by
  unfold Past.Asks
  obtain ⟨call, stage, deadline⟩ := t
  cases stage <;> first | exact True.intro | cases passed

theorem Past.Asks.later {t : CallTask} (asks : h.Asks t) {d : Client} {new : List Effect}
    {said : Nat → List Json} (current : d.current = h.client.current)
    (same : d.callWrite? t.call = h.client.callWrite? t.call)
    (answered : ∀ process request result, h.client.current = some process →
      d.outcome? request = some (.ok result) →
        h.client.outcome? request = some (.ok result) ∨
          (firstAnswer request (said process)).isSome = true)
    (heard : ∀ process request, (firstAnswer request (h.said process)).isSome = true →
      (firstAnswer request (said process)).isSome = true) :
    Past.Asks ⟨d, h.effects ++ new, said⟩ t := by
  unfold Past.Asks at asks ⊢
  obtain ⟨call, stage, deadline⟩ := t
  cases stage with
  | handshake request a =>
    obtain ⟨process, params, own, utters, answers⟩ := asks
    refine ⟨process, params, current.trans own, utters.later same, fun result settled => ?_⟩
    rcases answered process request result own settled with before | new
    · exact heard process request (answers result before)
    · exact new
  | greeting a =>
    obtain ⟨process, id, params, own, written, answer, utters⟩ := asks
    exact ⟨process, id, params, current.trans own, List.mem_append_left _ written,
      heard process id answer, utters.later same⟩
  | _ => exact True.intro

theorem outcome?_cases {c d : Client} {request : Nat} {answer : Nat → Option (Except Fault Json)}
    {outcome : Except Fault Json} (told : d.pending = tell answer c.pending)
    (settled : d.outcome? request = some outcome) :
    c.outcome? request = some outcome ∨ answer request = some outcome := by
  have known : request ∈ c.pending.map (·.id) := by
    obtain ⟨p, found, _⟩ := Option.bind_eq_some_iff.mp settled
    have member := List.mem_of_find?_eq_some found
    rw [told] at member
    obtain ⟨q, old, rfl⟩ := List.mem_map.mp member
    exact List.mem_map.mpr ⟨q, old, by simpa using List.find?_some found⟩
  rw [outcome?_of_tell known told] at settled
  exact (Option.or_eq_some_iff.mp settled).imp_right And.right

theorem Heard.answered {arrived : List Json} {before after : World} {request : Nat} {result : Json}
    (heard : Heard arrived before after)
    (settled : after.1.outcome? request = some (.ok result)) :
    before.1.outcome? request = some (.ok result) ∨
      (firstAnswer request arrived).isSome = true := by
  obtain ⟨handled, new, dealt⟩ := heard.heard
  have answered : firstAnswer request handled = some (.ok result) →
      (firstAnswer request arrived).isSome = true := by
    intro first
    obtain ⟨rest, rfl⟩ := dealt.first
    rw [firstAnswer_append, first]
    rfl
  rcases dealt.told with ⟨_, told⟩ | told
  · exact (outcome?_cases told settled).imp_right answered
  · refine (outcome?_cases told settled).imp_right fun told => answered ?_
    rcases Option.or_eq_some_iff.mp told with first | ⟨_, ended⟩
    · exact first
    · cases ended

theorem Noticed.initialized {c : Client} {source : Option Nat} {arrived : List Json} {after : World}
    (noticed : Noticed c source arrived after) (ready : after.1.initialized = true) :
    c.initialized = true := by
  cases noticed with
  | passes silent initialized => exact initialized ▸ ready
  | listens process own read listens =>
    cases listens.own with
    | waits p there reading waits initialized => exact initialized ▸ ready
    | ends ceased idle unready =>
      rw [unready] at ready
      cases ready

theorem Welcomes.hears (welcomes : Welcomes h) (lined : Lined h.client)
    (only : OnlyNewest h.client) (about : e.call? = none) : Welcomes (h.next now e) := by
  have heard := heard_step now lined about
  have noticed := noticed_step now lined about
  have current := noticed.held.current
  have more : ∀ process request, (firstAnswer request (h.said process)).isSome = true →
      (firstAnswer request ((h.next now e).said process)).isSome = true := by
    intro process request answered
    unfold Past.next
    dsimp only
    rw [firstAnswer_append, Option.isSome_or, answered]
    rfl
  constructor
  · intro t member
    have old : t ∈ h.client.tasks := heard.tasks ▸ member
    refine (welcomes.asked t old).later current (callWrite?_congr heard.calls _) ?_ more
    intro process request result own settled
    refine (heard.answered settled).imp_right fun new => ?_
    -- What answers comes from the one process that is read, and that is the current one.
    obtain ⟨other, source, read⟩ := noticed.source fun none => by
      rw [none] at new
      cases new
    have newest := only.read other read
    have newest' := only.current process own
    obtain rfl : other = process := by omega
    rw [source, if_pos rfl, firstAnswer_append, Option.isSome_or, new, Bool.or_true]
  · intro excuse process own
    refine (welcomes.greeted ?_ process (current.symm.trans own)).more _ _
    rcases excuse with ready | ⟨t, member, hovering⟩
    · exact .inl (noticed.initialized ready)
    · exact .inr ⟨t, heard.tasks ▸ member, hovering⟩

theorem settlesNone_step {c : Client} (now : Int) (consulted : Consulted c)
    (consults : e.isConsulting = true) (about : e.call? = some call) :
    SettlesNone (c, []) (step now c e) := by
  have goesOn : (c.closing? e).isSome = false := by
    have tasks : ∀ call, ((c.task? call).filter (·.stage.isClosing)).isSome = false := by
      intro call
      cases there : c.task? call with
      | none => rfl
      | some t =>
        have open_ := Stage.isClosing_of_isConsulting (consulted.consulting t (mem_of_task? there))
        simp [Option.filter_some, open_]
    cases e with
    | begin call what => cases what <;> first | rfl | cases consults
    | resume call => simpa [closing?] using tasks call
    | expired call => simpa [closing?] using tasks call
    | cancelled call => simpa [closing?] using tasks call
    | _ => rfl
  cases tended_step now about with
  | apart apart => exact apart.settled
  | spawned nesting processes current reader initialized settled => exact settled
  | ready processes current reader known ready settled => exact settled
  | stopped closing => rw [goesOn] at closing; cases closing
  | forgot closing processes current reader unready settled => exact settled

section

variable {c : Client} {effects : List Effect} {said : Nat → List Json} {after : World}

theorem Welcomes.keeps (welcomes : Welcomes ⟨c, effects, said⟩) (booked : Booked c)
    (acts : ActsFor call (c, []) after) (settles : SettlesNone (c, []) after)
    {own : Option CallTask} (remains : Remains call own c after.1)
    (current : after.1.current = c.current) (initialized : after.1.initialized = c.initialized)
    (asks : ∀ t ∈ own, Past.Asks ⟨after.1, effects ++ after.2, said⟩ t)
    (excuse : ∀ t ∈ own, t.stage.isHovering = true →
      c.initialized = true ∨ ∃ u ∈ c.tasks, u.stage.isHovering = true) :
    Welcomes ⟨after.1, effects ++ after.2, said⟩ := by
  constructor
  · intro t member
    rcases (remains t).mp member with new | ⟨old, apart⟩
    · exact asks t new
    · exact (welcomes.asked t old).later current (acts.callWrite? apart)
        (fun _ _ _ _ settled => .inl (settles.outcome?_of_some booked settled)) fun _ _ => id
  · intro ready process own'
    have before : Greeted effects (said process) process := by
      refine welcomes.greeted ?_ process (current.symm.trans own')
      rcases ready with ready | ⟨t, member, hovering⟩
      · exact .inl (initialized.symm.trans ready)
      · rcases (remains t).mp member with new | ⟨old, _⟩
        · exact excuse t new hovering
        · exact .inr ⟨t, old, hovering⟩
    simpa using before.more after.2 []

theorem Consulted.hasTurn_own {d : Client} (consulted : Consulted c) {t : CallTask}
    (there : c.task? call = some t) (turn : t.stage.hasTurn = true) {own : Option CallTask}
    (remains : Remains call own c d) : ∀ u ∈ d.tasks, u ∉ own → u.stage.hasTurn = false := by
  intro u member other
  obtain ⟨old, apart⟩ := ((remains u).mp member).resolve_left other
  cases turn' : u.stage.hasTurn with
  | false => rfl
  | true =>
    have first := consulted.queued.turns t (mem_of_task? there) turn
    have same := Option.some.inj (first.symm.trans (consulted.queued.turns u old turn'))
    exact absurd (same.symm.trans (task?_call there)) apart

/-- A process is spawned when the client is not ready and no call consults it. -/
theorem Welcomes.spawned (consulted : Consulted c) {a : AfterStart} {deadline waits : Option Int}
    (there : c.task? call = some ⟨call, .spawning a, deadline⟩) (settles : SettlesNone (c, []) after)
    (unready : c.initialized = false) (idle : ∀ t ∈ c.tasks, t.stage.isHovering = false)
    (remains : Remains call (some ⟨call, .handshake (c.lastRequest + 1) a, waits⟩) c after.1)
    (current : after.1.current = some c.processes.length)
    (initialized : after.1.initialized = c.initialized) {params : Json}
    (utters : Past.Utters ⟨after.1, effects ++ after.2, said⟩ call c.processes.length
      (Message.request (c.lastRequest + 1) initializeMethod params)) :
    Welcomes ⟨after.1, effects ++ after.2, said⟩ := by
  constructor
  · intro t member
    by_cases own : t ∈ some (CallTask.mk call (.handshake (c.lastRequest + 1) a) waits)
    · obtain rfl := Option.some.inj own
      refine ⟨_, params, current, utters, fun result settled => ?_⟩
      have old : c.outcome? (c.lastRequest + 1) = some (.ok result) :=
        settles.outcome?_of_some consulted.booked settled
      unfold outcome? at old
      rw [find?_unused consulted.booked (Nat.lt_succ_self _)] at old
      cases old
    · exact asks_of_not_hasTurn (consulted.hasTurn_own there rfl remains t member own)
  · intro excuse
    exfalso
    rcases excuse with ready | ⟨t, member, hovering⟩
    · rw [initialized, unready] at ready
      cases ready
    · rcases (remains t).mp member with new | ⟨old, _⟩
      · obtain rfl := Option.some.inj new
        cases hovering
      · rw [idle t old] at hovering
        cases hovering

/-- The server has been told that it is done. -/
theorem Welcomes.started (consulted : Consulted c) {t : CallTask} (there : c.task? call = some t)
    (turn : t.stage.hasTurn = true) {a : AfterStart}
    (shifted : Shifted call (a.task? call) c after.1)
    (greeted : ∀ process, after.1.current = some process →
      Greeted (effects ++ after.2) (said process) process) :
    Welcomes ⟨after.1, effects ++ after.2, said⟩ := by
  refine ⟨fun u member => asks_of_not_hasTurn ?_, fun _ process own => greeted process own⟩
  by_cases own : u ∈ a.task? call
  · have started := isStarting_task? a u own
    cases turn : u.stage.hasTurn with
    | false => rfl
    | true =>
      rw [Stage.isStarting_of_hasTurn turn] at started
      cases started
  · exact consulted.hasTurn_own there turn shifted.remains u member own

theorem Welcomes.drags (welcomes : Welcomes ⟨c, effects, said⟩) (consulted : Consulted c)
    (acts : ActsFor call (c, []) after) (settles : SettlesNone (c, []) after)
    (afresh : SpawnsAfresh c now e) (drags : Drags c call e after) :
    Welcomes ⟨after.1, effects ++ after.2, said⟩ := by
  have keeps := fun {own} (remains : Remains call own c after.1) =>
    welcomes.keeps consulted.booked acts settles remains
  cases drags with
  | greets a accepted deadline there shifted queue processes current initialized params limit later
      wrote =>
    obtain ⟨_, unready, idle⟩ := afresh (by simp [accepted, spawnsFor, there])
    exact .spawned consulted there settles unready idle shifted.remains current initialized
      (.inr ⟨limit, later⟩)
  | tells a request deadline there idle result answered calm queue limit queued later hands =>
    obtain ⟨process, params, current, utters, heard⟩ := welcomes.asked _ (mem_of_task? there)
    refine keeps calm.toShifted.remains calm.current calm.initialized ?_ (by simp [Stage.isHovering])
    rintro t ⟨⟩
    refine ⟨process, request, params, calm.current.trans current,
      List.mem_append_left _ (utters.written idle), heard result answered, ?_⟩
    cases queued with
    | true => exact .inr ⟨limit, later⟩
    | false =>
      obtain ⟨other, own, _, wrote⟩ := hands
      obtain rfl := Option.some.inj (own.symm.trans current)
      exact .inl (List.mem_append_right _ (wrote ▸ List.mem_singleton_self _))
  | writes t there turn deadline stays queue payload limit queued before later hands =>
    refine keeps stays.remains stays.current stays.initialized ?_ ?_
    · rintro u ⟨⟩
      have asks := welcomes.asked t (mem_of_task? there)
      obtain rfl := task?_call there
      obtain ⟨call, stage, _⟩ := t
      unfold Past.Asks at asks ⊢
      cases stage with
      | handshake request a =>
        obtain ⟨process, params, current, utters, heard⟩ := asks
        exact ⟨process, params, stays.current.trans current, .inl (utters.handed current before hands),
          fun result settled => heard result (settles.outcome?_of_some consulted.booked settled)⟩
      | greeting a =>
        obtain ⟨process, id, params, current, written, answer, utters⟩ := asks
        exact ⟨process, id, params, stays.current.trans current, List.mem_append_left _ written,
          answer, .inl (utters.handed current before hands)⟩
      | _ => exact True.intro
    · rintro u ⟨⟩ hovering
      rw [Stage.hasTurn_of_isHovering hovering] at turn
      cases turn
  | greeted a deadline there shifted queue processes current ready payload limit queued before new
      hands wrote =>
    obtain ⟨process, id, params, own, written, answer, utters⟩ :=
      welcomes.asked _ (mem_of_task? there)
    refine .started consulted there rfl shifted fun other now => ?_
    obtain rfl := Option.some.inj (own.symm.trans (current.symm.trans now))
    refine ⟨id, params, List.mem_append_left _ written, answer, ?_⟩
    rw [wrote, ← List.append_assoc]
    exact List.mem_append_left _ (utters.handed own before hands)
  | dwells t there hovering own dwells =>
    exact keeps dwells.stays.remains dwells.stays.current dwells.stays.initialized
      (fun u mine => asks_of_not_hasTurn (Stage.hasTurn_of_isHovering (dwells.hovering u mine).2.1))
      fun _ _ _ => .inr ⟨t, mem_of_task? there, hovering⟩

theorem Welcomes.advances (welcomes : Welcomes ⟨c, effects, said⟩) (consulted : Consulted c)
    (acts : ActsFor call (c, []) after) (settles : SettlesNone (c, []) after)
    (afresh : SpawnsAfresh c now e) (advance : Advance now c call e after) :
    Welcomes ⟨after.1, effects ++ after.2, said⟩ := by
  have keeps := fun {own} (calm : Calm call own c after.1) =>
    welcomes.keeps consulted.booked acts settles calm.toShifted.remains calm.current
      calm.initialized
  have passed : ∀ {own : Option CallTask}, (∀ t ∈ own, t.stage.hasTurn = false) →
      ∀ t ∈ own, Past.Asks ⟨after.1, effects ++ after.2, said⟩ t :=
    fun passed t mine => asks_of_not_hasTurn (passed t mine)
  cases advance with
  | idle unmoved same =>
    subst same
    simpa using welcomes
  | queues a begins turn calm queue pending effects =>
    exact keeps calm (by simp [Past.Asks]) (by simp [Stage.isHovering])
  | spawns a turns turn unready calm queue effects =>
    exact keeps calm (by simp [Past.Asks]) (by simp [Stage.isHovering])
  | starts a turns turn ready calm queue effects =>
    refine keeps calm (passed ?_) fun _ _ _ => .inl ?_
    · cases a <;> simp [AfterStart.task?, Stage.hasTurn]
    · exact (Bool.and_eq_true_iff.mp ready).1
  | startFails outcome starting failure calm queue effects => exact keeps calm forall_mem_no_task forall_mem_no_task
  | opens q content deadline there process own takes later calm queue effects =>
    exact keeps calm (by simp [Past.Asks]) fun _ _ _ => .inr ⟨_, mem_of_task? there, rfl⟩
  | closes request method uri deadline there process own takes outcome calm queue effects =>
    exact keeps calm forall_mem_no_task forall_mem_no_task
  | hoverFails t there hovering stopped outcome calm queue effects => exact keeps calm forall_mem_no_task forall_mem_no_task
  | greets a accepted deadline there shifted queue idle processes current initialized pending
      wrote =>
    obtain ⟨_, unready, idle⟩ := afresh (by simp [accepted, spawnsFor, there])
    exact .spawned consulted there settles unready idle shifted.remains current initialized
      (.inl (List.mem_append_right _ (wrote ▸ List.mem_singleton_self _)))
  | greeted a request deadline there idle result answered process own takes shifted queue processes
      current ready wrote =>
    obtain ⟨same, params, current', utters, heard⟩ := welcomes.asked _ (mem_of_task? there)
    refine .started consulted there rfl shifted fun other now => ?_
    obtain rfl := Option.some.inj (own.symm.trans current')
    obtain rfl := Option.some.inj (own.symm.trans (current.symm.trans now))
    refine ⟨request, params, List.mem_append_left _ (utters.written idle), heard result answered, ?_⟩
    rw [wrote]
    exact List.mem_append_right _ List.mem_cons_self
  | drags slow drags => exact welcomes.drags consulted acts settles afresh drags

end

theorem welcomes_next (welcomes : Welcomes h) (consulted : Consulted h.client)
    (only : OnlyNewest h.client) (consults : e.isConsulting = true) (fresh : BeginsNew h.client e)
    (afresh : SpawnsAfresh h.client now e) : Welcomes (h.next now e) := by
  cases about : e.call? with
  | none => exact welcomes.hears consulted.booked.lined only about
  | some call =>
    rw [h.next_of_call now about]
    exact welcomes.advances consulted (step_settles now about (fresh call) consulted.booked).2
      (settlesNone_step now consulted consults about) afresh
      (consulted.advance now consults fresh about)

end

section

variable {h : Past} {events : List (Int × Event)}

theorem consulted_after (orderly : Orderly h.client events)
    (consults : ∀ event ∈ events, event.2.isConsulting = true) (consulted : Consulted h.client) :
    Consulted (h.after events).client := by
  induction events generalizing h with
  | nil => exact consulted
  | cons event more ih =>
    obtain ⟨first, later⟩ := List.forall_mem_cons.mp consults
    exact ih (orderly.step event.1) later (consulted_step consulted event.1 first orderly.unknown)

theorem welcomes_after (orderly : Orderly h.client events)
    (consults : ∀ event ∈ events, event.2.isConsulting = true)
    (afresh : EachStep SpawnsAfresh h.client events) (consulted : Consulted h.client)
    (only : OnlyNewest h.client) (welcomes : Welcomes h) : Welcomes (h.after events) := by
  induction events generalizing h with
  | nil => exact welcomes
  | cons event more ih =>
    obtain ⟨now, e⟩ := event
    obtain ⟨first, later⟩ := List.forall_mem_cons.mp consults
    have inTurn : SpawnsInTurn h.client now e := fun spawns => (afresh.1 spawns).1
    exact ih (orderly.step now) later afresh.2 (consulted_step consulted now first orderly.unknown)
      (onlyNewest_step only inTurn) (welcomes_next welcomes consulted only first orderly.unknown
        afresh.1)

end

theorem onlyNewest_ofSetup (setup : ServerSetup) : OnlyNewest (ofSetup setup) :=
  ⟨fun process read => by simp [isRead, ofSetup] at read, fun process current => by cases current⟩

/-- Servers are greeted first, whatever happens next, when no call consults one that has not been
    greeted, and only then if no write is under way; and so it is if each process is spawned
    afresh. -/
theorem greeted_first_iff (setup : ServerSetup) (events : List (Int × Event))
    (distinct : (begun events).Nodup) (consults : ∀ event ∈ events, event.2.isConsulting = true) :
    let h := (Past.ofSetup setup).after events
    (Poised h → ∀ now e, e.isConsulting = true → BeginsNew h.client e → GreetedFirst h now e) ∧
      (h.client.writes = [] →
        (∀ now e, e.isConsulting = true → BeginsNew h.client e → GreetedFirst h now e) →
        Poised h) ∧
      (EachStep SpawnsAfresh (ofSetup setup) events → Poised h) := by
  intro h
  have orderly : Orderly (Past.ofSetup setup).client events := orderly_ofSetup setup distinct
  have consulted : Consulted h.client :=
    consulted_after orderly consults (consulted_ofSetup setup)
  refine ⟨fun poised now e => greetedFirst_of_poised consulted poised,
    poised_of_greetedFirst consulted, fun afresh t member hovering _ process current => ?_⟩
  have nothing : Welcomes (Past.ofSetup setup) := by
    constructor <;> simp [Past.ofSetup, Client.ofSetup]
  have welcomes := welcomes_after orderly consults afresh (consulted_ofSetup setup)
    (onlyNewest_ofSetup setup) nothing
  exact welcomes.greeted (.inr ⟨t, member, hovering⟩) process current

/-- The server exits between two calls, and the one that is spawned for the second is greeted. -/
theorem greeted_first_after_exit :
    let q : Question := ⟨['u'], ⟨0, 0⟩⟩
    let answer (id : Nat) : Bytes := Frame.encode (.object [("id", .int id), ("result", .null)])
    let events : List (Int × Event) :=
      [(0, .begin 0 (.hoverDocument q)), (0, .spawned 0 none), (1, .output 0 (answer 1)),
        (1, .resume 0), (1, .document 0 (.ok ['x'])), (2, .output 0 (answer 2)), (2, .resume 0),
        (3, .exited 0), (3, .outputEnded 0), (4, .begin 1 (.hoverDocument q)), (4, .spawned 1 none),
        (5, .output 1 (answer 3)), (5, .resume 1)]
    let h := (Past.ofSetup ⟨[['s']], ⟨['/'], []⟩, 1, 10000000, 100⟩).after events
    h.client.current = some 1 ∧ h.client.tasks.any (·.stage.isHovering) = true ∧
      ∀ now e, e.isConsulting = true → BeginsNew h.client e → GreetedFirst h now e := by
  intro q answer events h
  have afresh : EachStep SpawnsAfresh (ofSetup ⟨[['s']], ⟨['/'], []⟩, 1, 10000000, 100⟩) events := by
    decide +kernel
  obtain ⟨first, _, poised⟩ := greeted_first_iff ⟨[['s']], ⟨['/'], []⟩, 1, 10000000, 100⟩ events (by decide)
    (by decide)
  exact ⟨by decide +kernel, by decide +kernel, first (poised afresh)⟩

/-- The first server answers and puts out what cannot be read, at once: its reader ends before the
    call goes on, and the client takes itself for ready as long as any process runs. The second
    server does not answer, and the third call tells it of a document. -/
theorem unread_server_leaves_next_ungreeted :
    let q : Question := ⟨['u'], ⟨0, 0⟩⟩
    let answer : Bytes := Frame.encode (.object [("id", .int 1), ("result", .null)])
    let events : List (Int × Event) :=
      [(0, .begin 0 (.hoverDocument q)), (0, .spawned 0 none),
        (0, .output 0 (answer ++ [120, 13, 10, 13, 10])), (0, .resume 0),
        (0, .document 0 (.ok ['x'])), (10000000, .expired 0), (10000000, .exited 0),
        (10000000, .outputEnded 0), (10000000, .begin 1 (.hoverDocument q)),
        (10000000, .spawned 1 none), (20000000, .expired 1),
        (20000000, .begin 2 (.hoverDocument q))]
    let h := (Past.ofSetup ⟨[['s']], ⟨['/'], []⟩, 1, 10000000, 100⟩).after events
    (begun events).Nodup ∧ (∀ event ∈ events, event.2.isConsulting = true) ∧
      ¬ ∀ now e, e.isConsulting = true → BeginsNew h.client e → GreetedFirst h now e := by
  intro q answer events h
  have distinct : (begun events).Nodup := by decide
  have consults : ∀ event ∈ events, event.2.isConsulting = true := by decide
  refine ⟨distinct, consults, fun first => ?_⟩
  have orderly := orderly_ofSetup ⟨[['s']], ⟨['/'], []⟩, 1, 10000000, 100⟩ distinct
  have consulted : Consulted h.client :=
    consulted_after (h := .ofSetup _) orderly consults (consulted_ofSetup _)
  have asks : h.client.tasks.any (·.stage.isHovering) = true := by decide +kernel
  obtain ⟨t, member, hovering⟩ := List.any_eq_true.mp asks
  have free : h.client.writes = [] := List.isEmpty_iff.mp (by decide +kernel)
  obtain ⟨id, params, _, answered, _⟩ := poised_of_greetedFirst consulted free first t member
    hovering (by decide +kernel) 1 (by decide +kernel)
  have silent : (h.said 1).isEmpty = true := by decide +kernel
  rw [List.isEmpty_iff.mp silent] at answered
  cases answered

end Client

end TemplateTypes
