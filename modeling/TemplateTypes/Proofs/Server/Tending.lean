import TemplateTypes.Proofs.Server.Correspondence

namespace TemplateTypes

namespace Client

def SettlesNone (before after : World) : Prop :=
  ∀ p ∈ after.1.pending, p.outcome.isSome = true → p ∈ before.1.pending

/-- Writes take time only if some did or a process is full. A reader that ends writes no more, and
    the others write as before. -/
structure Writes (ending : Option Nat) (before after : World) : Prop where
  flows : Flows before.1 → Flows after.1
  readers : ∀ process, after.1.isWriting (.reader process) =
    (before.1.isWriting (.reader process) && ending != some process)

/-- The sessions are as they were, and no request has been settled. -/
structure Apart (before after : World) : Prop where
  processes : after.1.processes = before.1.processes
  current : after.1.current = before.1.current
  reader : after.1.reader = before.1.reader
  initialized : after.1.initialized = before.1.initialized
  settled : SettlesNone before after
  writes : Writes none before after

/-- What a call does; only one that shuts the client down stops a reader or forgets a process, and
    only after a write that took time can the client get ready without a process. -/
inductive Tended (closes : Bool) (flowing : Prop) (before after : World) : Prop
  | apart (apart : Apart before after)
  | spawned (nesting : Nat)
    (processes : after.1.processes = before.1.processes ++ [.fresh nesting])
    (current : after.1.current = some before.1.processes.length)
    (reader : after.1.reader = some before.1.processes.length)
    (initialized : after.1.initialized = before.1.initialized)
    (settled : SettlesNone before after) (writes : Writes none before after)
  | ready (processes : after.1.processes = before.1.processes)
    (current : after.1.current = before.1.current) (reader : after.1.reader = before.1.reader)
    (known : flowing → before.1.current.isSome = true) (ready : after.1.initialized = true)
    (settled : SettlesNone before after) (writes : Writes none before after)
  | stopped (closing : closes = true) (process : Nat) (p : ServerProcess)
    (waited : before.1.reader = some process) (there : before.1.processes[process]? = some p)
    (reading : p.reader = .reading)
    (processes : after.1.processes = before.1.processes.set process { p with reader := .finished })
    (current : after.1.current = before.1.current) (reader : after.1.reader = before.1.reader)
    (unready : after.1.initialized = false) (writes : Writes (some process) before after)
  | forgot (closing : closes = true) (processes : after.1.processes = before.1.processes)
    (current : after.1.current = none) (reader : after.1.reader = none)
    (unready : after.1.initialized = false) (settled : SettlesNone before after)
    (writes : Writes none before after)

theorem SettlesNone.refl (s : World) : SettlesNone s s := fun _ there _ => there

theorem SettlesNone.trans {s t u : World} (first : SettlesNone s t) (second : SettlesNone t u) :
    SettlesNone s u :=
  fun p there settled => first p (second p there settled) settled

theorem Writes.of_same {s t : World} (flows : Flows s.1 → Flows t.1)
    (same : ∀ process, t.1.isWriting (.reader process) = s.1.isWriting (.reader process)) :
    Writes none s t :=
  ⟨flows, fun process => by simp [same]⟩

theorem Writes.same {s t : World} (writes : Writes none s t) (process : Nat) :
    t.1.isWriting (.reader process) = s.1.isWriting (.reader process) := by
  simp [writes.readers]

theorem Writes.refl (s : World) : Writes none s s := .of_same id fun _ => rfl

theorem Writes.trans {ending : Option Nat} {s t u : World} (first : Writes none s t)
    (second : Writes ending t u) : Writes ending s u :=
  ⟨fun flows => second.flows (first.flows flows), fun process => by
    rw [second.readers, first.same]⟩

theorem Writes.trans_apart {ending : Option Nat} {s t u : World} (first : Writes ending s t)
    (second : Writes none t u) : Writes ending s u :=
  ⟨fun flows => second.flows (first.flows flows), fun process => by
    rw [second.same, first.readers]⟩

instance : Std.Refl Apart := ⟨fun s => ⟨rfl, rfl, rfl, rfl, .refl s, .refl s⟩⟩

instance : IsTrans World Apart where
  trans _ _ _ first second :=
    ⟨second.processes.trans first.processes, second.current.trans first.current,
      second.reader.trans first.reader, second.initialized.trans first.initialized,
      first.settled.trans second.settled, first.writes.trans second.writes⟩

instance (closes : Bool) (flowing : Prop) : Std.Refl (Tended closes flowing) := ⟨fun s => .apart (refl_of Apart s)⟩

theorem Tended.flows {closes : Bool} {flowing : Prop} {before after : World}
    (tended : Tended closes flowing before after) :
    Flows before.1 → Flows after.1 := by
  cases tended with
  | apart apart => exact apart.writes.flows
  | spawned nesting processes current reader initialized settled writes => exact writes.flows
  | ready processes current reader known ready settled writes => exact writes.flows
  | stopped closing process p waited there reading processes current reader unready writes =>
    exact writes.flows
  | forgot closing processes current reader unready settled writes => exact writes.flows

theorem Apart.tended {closes : Bool} {flowing : Prop} {s t u : World} (first : Apart s t)
    (second : Tended closes flowing t u) : Tended closes flowing s u := by
  obtain ⟨processes, current, reader, initialized, settled, writes⟩ := first
  cases second with
  | apart second =>
    exact .apart (trans_of Apart ⟨processes, current, reader, initialized, settled, writes⟩ second)
  | spawned nesting processes' current' reader' initialized' settled' writes' =>
    rw [processes] at processes' current' reader'
    exact .spawned nesting processes' current' reader' (initialized'.trans initialized)
      (settled.trans settled') (writes.trans writes')
  | ready processes' current' reader' known ready settled' writes' =>
    rw [current] at known
    exact .ready (processes'.trans processes) (current'.trans current) (reader'.trans reader)
      known ready (settled.trans settled') (writes.trans writes')
  | stopped closing process p waited there reading processes' current' reader' unready writes' =>
    rw [reader] at waited
    rw [processes] at there processes'
    exact .stopped closing process p waited there reading processes' (current'.trans current)
      (reader'.trans reader) unready (writes.trans writes')
  | forgot closing processes' current' reader' unready settled' writes' =>
    exact .forgot closing (processes'.trans processes) current' reader' unready
      (settled.trans settled') (writes.trans writes')

theorem Tended.before_apart {closes : Bool} {flowing : Prop} {s t u : World}
    (first : Tended closes flowing s t) (second : Apart t u) : Tended closes flowing s u := by
  obtain ⟨processes, current, reader, initialized, settled, writes⟩ := second
  cases first with
  | apart first =>
    exact .apart (trans_of Apart first ⟨processes, current, reader, initialized, settled, writes⟩)
  | spawned nesting processes' current' reader' initialized' settled' writes' =>
    exact .spawned nesting (processes.trans processes') (current.trans current')
      (reader.trans reader') (initialized.trans initialized') (settled'.trans settled)
      (writes'.trans writes)
  | ready processes' current' reader' known ready settled' writes' =>
    exact .ready (processes.trans processes') (current.trans current') (reader.trans reader') known
      (initialized.trans ready) (settled'.trans settled) (writes'.trans writes)
  | stopped closing process p waited there reading processes' current' reader' unready writes' =>
    exact .stopped closing process p waited there reading (processes.trans processes')
      (current.trans current') (reader.trans reader') (initialized.trans unready)
      (writes'.trans_apart writes)
  | forgot closing processes' current' reader' unready settled' writes' =>
    exact .forgot closing (processes.trans processes') (current.trans current')
      (reader.trans reader') (initialized.trans unready) (settled'.trans settled)
      (writes'.trans writes)

theorem Ensures.tended {α : Type} {a : Act α} (closes : Bool) {flowing : Prop}
    (apart : Ensures Apart a) : Ensures (Tended closes flowing) a :=
  apart.mono fun _ _ => .apart

theorem apart_update {f : Client → Client} (processes : ∀ c, (f c).processes = c.processes)
    (current : ∀ c, (f c).current = c.current) (reader : ∀ c, (f c).reader = c.reader)
    (initialized : ∀ c, (f c).initialized = c.initialized)
    (pending : ∀ c, ∀ p ∈ (f c).pending, p.outcome.isSome = true → p ∈ c.pending)
    (writes : ∀ c, (f c).writes = c.writes) : Ensures Apart (update f) :=
  ensures_update fun c _ => ⟨processes c, current c, reader c, initialized c, pending c,
    .of_same (·.congr (writes c) (processes c)) fun _ => by rw [isWriting, writes c]; rfl⟩

theorem apart_emit (e : Effect) : Ensures Apart (emit e) :=
  ensures_emit fun c effects => ⟨rfl, rfl, rfl, rfl, .refl (c, effects), .of_same id fun _ => rfl⟩

theorem apart_leave (call : Nat) (outcome : Outcome) : Ensures Apart (leave call outcome) :=
  (apart_update (f := withoutTask call) (fun _ => rfl) (fun _ => rfl) (fun _ => rfl) (fun _ => rfl)
    (fun _ _ there _ => there) fun _ => rfl).bind fun _ => apart_emit _

theorem apart_wait (call : Nat) (stage : Stage) (deadline : Option Int) :
    Ensures Apart (wait call stage deadline) :=
  apart_update (fun _ => rfl) (fun _ => rfl) (fun _ => rfl) (fun _ => rfl)
    (fun _ _ there _ => there) fun _ => rfl

theorem apart_wait_emit (call : Nat) (stage : Stage) (deadline : Option Int) (e : Effect) :
    Ensures Apart (wait call stage deadline >>= fun _ => emit e) :=
  (apart_wait call stage deadline).bind fun _ => apart_emit e

theorem apart_forget (request : Nat) : Ensures Apart (forget request) :=
  apart_update (fun _ => rfl) (fun _ => rfl) (fun _ => rfl) (fun _ => rfl)
    (fun _ _ there _ => (List.mem_filter.mp there).1) fun _ => rfl

theorem apart_passTurn (call : Nat) : Ensures Apart (passTurn call) :=
  apart_update (fun _ => rfl) (fun _ => rfl) (fun _ => rfl) (fun _ => rfl)
    (fun _ _ there _ => there) fun _ => rfl

theorem apart_writes {s after : World} {writes : List Writing}
    (changed : after.1 = withWrites writes s.1) (flows : Flows s.1 → Flows after.1)
    (readers : ∀ process, writes.any (·.writer == .reader process) =
      s.1.isWriting (.reader process)) : Apart s after := by
  obtain ⟨_, effects⟩ := after
  subst changed
  exact ⟨rfl, rfl, rfl, rfl, .refl s, .of_same flows readers⟩

theorem apart_unwrite (call : Nat) : Ensures Apart (update (unwrite (.call call))) := by
  intro s
  have filtered : (update (unwrite (.call call)) s).2.1 =
      withWrites (s.1.writes.filter (·.writer != .call call)) s.1 := rfl
  refine apart_writes filtered (fun flows => ?_) fun process => ?_
  · refine ⟨?_, flows.room⟩
    rw [update_apply, unwrite, flows.free]
    rfl
  · rw [isWriting, List.any_filter]
    congr 1
    funext w
    by_cases own : w.writer = .reader process <;> simp [own]

theorem apart_send (call : Nat) (payload : Json) (limit : Option Int) :
    Ensures Apart (send (.call call) payload limit) := by
  intro s
  obtain ⟨sent, after, sends, sent_eq⟩ := send_cases (.call call) payload limit s
  rw [sent_eq]
  have flows := fun before => (sends.flows before).2
  cases sends with
  | notRunning current => exact refl_of Apart s
  | lost process reason current free lost => exact refl_of Apart s
  | done process current free takes =>
    have same : s.1 = withWrites s.1.writes s.1 := rfl
    exact apart_writes same flows fun _ => rfl
  | drains process current free full =>
    exact apart_writes rfl flows fun process => by simp [isWriting, free]
  | queues process current busy =>
    exact apart_writes rfl flows fun process => by simp [isWriting]

theorem apart_resumeWrite (call : Nat) : Ensures Apart (resumeWrite (.call call)) := by
  intro s
  obtain ⟨sent, after, resumes, resumed⟩ := resumeWrite_cases (.call call) s
  rw [resumed]
  rcases resumes.advances with ⟨_, _, rfl⟩ | ⟨w, more, v, new, advances⟩
  · exact refl_of Apart _
  · have changed : after.1 = withWrites (v.toList ++ more) s.1 := by rw [advances.result]
    refine apart_writes changed (fun flows => ?_) fun process => ?_
    · cases flows.free.symm.trans advances.writes
    · rw [isWriting, advances.writes, List.any_cons, advances.own]
      cases v with
      | none => rfl
      | some x => simp [(advances.goesOn x rfl).1]

theorem apart_setDeadline (call : Nat) (deadline : Option Int) :
    Ensures Apart (update (setDeadline call deadline)) :=
  apart_update (fun _ => rfl) (fun _ => rfl) (fun _ => rfl) (fun _ => rfl)
    (fun _ _ there _ => there) fun _ => rfl

section

variable {R : World → World → Prop} {call : Nat} {payload : Json}

theorem apart_sendThen {stage : Stage} {limit : Option Int} {next : Option WriteError → Act Unit}
    (apart : ∀ {s t}, Apart s t → R s t) (compose : ∀ {s t u}, Apart s t → R t u → R s u)
    (goes : ∀ failure, Ensures R (next failure)) :
    Ensures R (sendThen call stage limit payload next) :=
  ensures_sendThen_of (apart_send _ _ _) ((apart_wait _ _ _).mono fun _ _ => apart) goes compose

theorem apart_ask {now limit : Int} {stage : Nat → Stage} {method : Text} {params : Json}
    {refused : WriteError → Act Unit} (apart : ∀ {s t}, Apart s t → R s t)
    (compose : ∀ {s t u}, Apart s t → R t u → R s u) (goes : ∀ e, Ensures R (refused e)) :
    Ensures R (ask now call stage limit method params refused) := by
  refine ensures_look fun c => Ensures.followed (R := Apart) (S := R) ?_
    (fun _ => apart_sendThen apart compose fun failure => ?_) compose
  · refine apart_update (fun _ => rfl) (fun _ => rfl) (fun _ => rfl) (fun _ => rfl) ?_ fun _ => rfl
    intro d p there settled
    rcases List.mem_append.mp there with old | new
    · exact old
    · rw [List.mem_singleton.mp new] at settled
      cases settled
  · cases failure with
    | none => exact (apart_wait _ _ _).mono fun _ _ => apart
    | some e => exact (apart_forget _).followed (fun _ => goes e) compose

end

theorem apart_startFailed (call : Nat) (fault : Fault) : Ensures Apart (startFailed call fault) :=
  (apart_passTurn call).bind fun _ => apart_leave call _

theorem apart_started (call : Nat) (after : AfterStart) : Ensures Apart (started call after) := by
  refine (apart_passTurn call).bind fun _ => ?_
  cases after with
  | finish => exact apart_leave call _
  | hover q => exact apart_wait_emit call _ _ _

theorem apart_takeTurn (call : Nat) (after : AfterStart) : Ensures Apart (takeTurn call after) := by
  refine ensures_look fun c => ?_
  split
  · exact apart_started call after
  · split
    · exact apart_startFailed call _
    · exact apart_wait_emit call _ _ _

theorem apart_enqueue (call : Nat) (after : AfterStart) : Ensures Apart (enqueue call after) := by
  refine Ensures.bind ?_ fun _ => ensures_look fun c => ?_
  · exact apart_update (fun _ => rfl) (fun _ => rfl) (fun _ => rfl) (fun _ => rfl)
      (fun _ _ there _ => there) fun _ => rfl
  · split
    · exact apart_takeTurn call after
    · exact apart_wait call _ _

theorem apart_lastSent (call : Nat) (outcome : Outcome) (failure : Option WriteError) :
    Ensures Apart (lastSent call outcome failure) := by
  cases failure <;> exact apart_leave call _

theorem apart_finishWriting (call : Nat) (payload : Json) (outcome : Outcome) :
    Ensures Apart (finishWriting call payload outcome) :=
  apart_sendThen id (trans_of Apart) (apart_lastSent call outcome)

theorem apart_finishAnswer (call : Nat) (use : AnswerUse) (outcome : Except Fault Json) :
    Ensures Apart (finishAnswer call use outcome) := by
  cases use with
  | whole => exact apart_leave call _
  | candidates => exact apart_leave call _
  | candidatesOf uri => exact apart_finishWriting call _ _

theorem apart_request (now : Int) (call : Nat) (method : Text) (params : Json)
    (timeout : Option Int) (use : AnswerUse) :
    Ensures Apart (request now call method params timeout use) :=
  ensures_look fun _ => apart_ask id (trans_of Apart) fun _ => apart_finishAnswer call use _

theorem apart_documentSent (now : Int) (call : Nat) (q : Question) (failure : Option WriteError) :
    Ensures Apart (documentSent now call q failure) := by
  cases failure with
  | some e => exact apart_leave call _
  | none => exact apart_request now call _ _ _ _

theorem apart_hoverContent (now : Int) (call : Nat) (q : Question) (content : Text) :
    Ensures Apart (hoverContent now call q content) :=
  apart_sendThen id (trans_of Apart) (apart_documentSent now call q)

theorem Flows.spawned {c d : Client} {nesting : Nat} (flows : Flows c)
    (writes : d.writes = c.writes) (processes : d.processes = c.processes ++ [.fresh nesting]) :
    Flows d := by
  refine ⟨writes.trans flows.free, fun p member => ?_⟩
  rw [processes] at member
  rcases List.mem_append.mp member with old | new
  · exact flows.room p old
  · rw [List.mem_singleton.mp new]
    rfl

section

variable {flowing : Prop}

theorem tended_greet (now : Int) (call : Nat) (after : AfterStart) :
    Ensures (Tended false flowing) (greet now call after) :=
  Ensures.followed (R := Tended false flowing) (S := Apart)
    (ensures_update fun c effects => .spawned c.setup.nesting rfl rfl rfl rfl (.refl (c, effects))
      (.of_same (·.spawned rfl rfl) fun _ => rfl))
    (fun _ => ensures_look fun _ => apart_ask id (trans_of Apart) fun _ => apart_startFailed call _)
    Tended.before_apart

theorem tended_greetingSent {flowing : Prop} (call : Nat) (after : AfterStart)
    (failure : Option WriteError) {s : World} (known : flowing → s.1.current.isSome = true) :
    Tended false flowing s (greetingSent call after failure s).2 := by
  cases failure with
  | some e => exact (apart_startFailed call _).tended false s
  | none =>
    have ready : Tended false flowing s (update (fun c => { c with initialized := true }) s).2 :=
      .ready rfl rfl rfl known rfl (.refl s) (.of_same (·.congr rfl rfl) fun _ => rfl)
    exact ready.before_apart (apart_started call after _)

theorem tended_greeted {flowing : Prop} (call : Nat) (after : AfterStart)
    (outcome : Except Fault Json) : Ensures (Tended false flowing) (greeted call after outcome) := by
  cases outcome with
  | error fault => exact (apart_startFailed call fault).tended false
  | ok result =>
    intro s
    let payload := Message.notification "initialized".toList (.obj [])
    obtain ⟨sent, between, sends, sent_eq⟩ := send_cases (.call call) payload none s
    have told := apart_send call payload none s
    rw [sent_eq] at told
    unfold greeted
    dsimp only
    rw [sendThen_apply sent_eq]
    cases sent with
    | done =>
      refine told.tended (tended_greetingSent call after none fun _ => ?_)
      cases sends with
      | done process current free takes =>
        change s.1.current.isSome = true
        rw [current]
        rfl
    | failed e => exact told.tended ((apart_startFailed call _).tended false between)
    | waits => exact told.tended ((apart_wait call _ _).tended false between)

theorem tended_forgetProcess (call : Nat) : Ensures (Tended true flowing) (forgetProcess call) :=
  Ensures.followed (R := Tended true flowing) (S := Apart)
    (ensures_update fun c effects => .forgot rfl rfl rfl rfl rfl (.refl (c, effects))
      (.of_same (·.congr rfl rfl) fun _ => rfl))
    (fun _ => apart_leave call _) Tended.before_apart

/-- The reader is kept from its reply, and ends. -/
theorem tended_endReader {process : Nat} {p : ServerProcess} {s : World}
    (waited : s.1.reader = some process) (there : s.1.processes[process]? = some p)
    (reading : p.reader = .reading) :
    Tended true flowing s (endReader process .finished (unwrite (.reader process) s.1, s.2)).2 := by
  have freed : (unwrite (.reader process) s.1).processes[process]? = some p := there
  unfold endReader
  rw [update_apply]
  dsimp only
  rw [freed]
  refine .stopped rfl process p waited there reading rfl rfl rfl rfl ⟨fun flows => ?_, ?_⟩
  · refine flows.set ?_ there rfl (.inl rfl)
    change s.1.writes.filter _ = s.1.writes
    rw [flows.free]
    rfl
  · intro other
    change (s.1.writes.filter _).any _ = (s.1.writes.any _ && _)
    rw [List.any_filter]
    by_cases same : process = other
    · simp [same]
    · have kept : ∀ w : Writing, (w.writer != .reader process && w.writer == .reader other) =
          (w.writer == .reader other) := by
        intro w
        by_cases own : w.writer = .reader other <;> simp [own, Ne.symm same]
      simp [kept, same]

theorem tended_stopReader (call : Nat) : Ensures (Tended true flowing) (stopReader call) := by
  refine ensures_read_bind fun s => ?_
  cases waited : s.1.reader with
  | none => exact tended_forgetProcess call s
  | some process =>
    dsimp only
    cases known : s.1.readerState? process with
    | none => exact tended_forgetProcess call s
    | some state =>
      cases state with
      | finished => exact tended_forgetProcess call s
      | crashed fault => exact (apart_leave call _).tended true s
      | reading =>
        obtain ⟨p, there, reading⟩ := Option.map_eq_some_iff.mp known
        exact (tended_endReader waited there reading).before_apart (apart_wait call _ _ _)

theorem tended_kill (call : Nat) : Ensures (Tended true flowing) (kill call) := by
  refine ensures_look fun c => ?_
  split
  · exact (apart_leave call _).tended true
  · split
    · exact (apart_wait_emit call _ _ _).tended true
    · exact tended_stopReader call

theorem tended_untold (call : Nat) (e : WriteError) : Ensures (Tended true flowing) (untold call e) := by
  cases e with
  | unknownProcess => exact (apart_leave call _).tended true
  | _ => exact tended_kill call

theorem tended_farewellSent (now : Int) (call : Nat) (failure : Option WriteError) :
    Ensures (Tended true flowing) (farewellSent now call failure) := by
  cases failure with
  | some e => exact tended_untold call e
  | none =>
    refine ensures_look fun c => ?_
    split
    · exact (apart_leave call _).tended true
    · exact (apart_wait call _ _).tended true

theorem tended_farewell (now : Int) (call : Nat) (outcome : Except Fault Json) :
    Ensures (Tended true flowing) (farewell now call outcome) := by
  cases outcome with
  | error fault => exact tended_kill call
  | ok result => exact apart_sendThen .apart Apart.tended (tended_farewellSent now call)

theorem tended_shutDown (now : Int) (call : Nat) : Ensures (Tended true flowing) (shutDown now call) := by
  refine ensures_look fun c => ?_
  split
  · exact (apart_leave call _).tended true
  · split
    · exact apart_ask .apart Apart.tended (tended_untold call)
    · exact tended_stopReader call

theorem tended_takeOutcome {closes : Bool} (request : Nat) {next : Except Fault Json → Act Unit}
    (goes : ∀ outcome, Ensures (Tended closes flowing) (next outcome)) :
    Ensures (Tended closes flowing) (takeOutcome request next) := by
  refine ensures_look fun c => ?_
  split
  · exact ensures_pure _
  · exact (apart_forget request).followed (fun _ => goes _) Apart.tended

theorem tended_resume (now : Int) (t : CallTask) :
    Ensures (Tended t.stage.isClosing flowing) (resume now t) := by
  obtain ⟨call, stage, deadline⟩ := t
  cases stage with
  | startTurn after => exact (apart_takeTurn call after).tended _
  | handshake request after => exact tended_takeOutcome request (tended_greeted call after)
  | answer request method use =>
    exact tended_takeOutcome request fun outcome => (apart_finishAnswer call use outcome).tended _
  | shutdownAnswer request => exact tended_takeOutcome request (tended_farewell now call)
  | exit process => exact tended_stopReader call
  | killedExit process => exact tended_stopReader call
  | readerEnd process => exact tended_forgetProcess call
  | _ => exact ensures_pure _

theorem tended_wrote (now : Int) (t : CallTask) (limit : Option Int) (failure : Option WriteError)
    (stalled : ¬ flowing) :
    Ensures (Tended t.stage.isClosing flowing) (wrote now t limit failure) := by
  obtain ⟨call, stage, deadline⟩ := t
  cases stage with
  | greeting after =>
    exact fun s => tended_greetingSent call after failure fun flows => absurd flows stalled
  | opening q => exact (apart_documentSent now call q failure).tended _
  | lastWrite outcome => exact (apart_lastSent call outcome failure).tended _
  | farewell => exact tended_farewellSent now call failure
  | handshake request after =>
    cases failure with
    | none => exact (apart_setDeadline call _).tended _
    | some e => exact ((apart_forget request).bind fun _ => apart_startFailed call _).tended _
  | answer request method use =>
    cases failure with
    | none => exact (apart_setDeadline call _).tended _
    | some e => exact ((apart_forget request).bind fun _ => apart_finishAnswer call use _).tended _
  | shutdownAnswer request =>
    cases failure with
    | none => exact (apart_setDeadline call _).tended _
    | some e => exact (apart_forget request).followed (fun _ => tended_untold call e) Apart.tended
  | _ => exact ensures_pure _

theorem tended_goOnWriting (now : Int) (t : CallTask) (s : World) :
    Tended t.stage.isClosing (Flows s.1) s (goOnWriting now t s).2 := by
  obtain ⟨sent, after, resumes, resumed⟩ := resumeWrite_cases (.call t.call) s
  have resumes' := apart_resumeWrite t.call s
  rw [resumed] at resumes'
  rw [goOnWriting_apply resumed]
  have stalled : sent ≠ .waits → ¬ Flows s.1 := fun goesOn flows => goesOn (resumes.flows flows).1
  cases sent with
  | done => exact resumes'.tended (tended_wrote now t _ none (stalled (by simp)) after)
  | failed e => exact resumes'.tended (tended_wrote now t _ (some e) (stalled (by simp)) after)
  | waits => exact .apart resumes'

theorem tended_expire (t : CallTask) : Ensures (Tended t.stage.isClosing flowing) (expire t) := by
  obtain ⟨call, stage, deadline⟩ := t
  cases stage with
  | handshake request after =>
    exact ((apart_forget request).bind fun _ => apart_startFailed call _).tended _
  | answer request method use =>
    exact ((apart_forget request).bind fun _ => apart_finishAnswer call use _).tended _
  | shutdownAnswer request =>
    exact (apart_forget request).followed (fun _ => tended_kill call) Apart.tended
  | exit process => exact tended_kill call
  | _ => exact ensures_pure _

theorem tended_cancel (t : CallTask) : Ensures (Tended t.stage.isClosing flowing) (cancel t) := by
  obtain ⟨call, stage, deadline⟩ := t
  have left : Ensures Apart (leave call .cancelled) := apart_leave call _
  cases stage with
  | startTurn after => exact ((apart_passTurn call).bind fun _ => left).tended _
  | spawning after => exact ((apart_passTurn call).bind fun _ => left).tended _
  | greeting after => exact ((apart_passTurn call).bind fun _ => left).tended _
  | handshake request after =>
    exact ((apart_forget request).bind fun _ => (apart_passTurn call).bind fun _ => left).tended _
  | answer request method use =>
    cases use with
    | whole => exact ((apart_forget request).bind fun _ => left).tended _
    | candidates => exact ((apart_forget request).bind fun _ => left).tended _
    | candidatesOf uri =>
      exact ((apart_forget request).bind fun _ => apart_finishWriting call _ _).tended _
  | shutdownAnswer request => exact ((apart_forget request).bind fun _ => left).tended _
  | readerEnd process => exact tended_forgetProcess call
  | _ => exact left.tended _

theorem tended_withTask {c : Client} {call : Nat} {f : CallTask → Act Unit}
    (goes : ∀ t : CallTask, Tended t.stage.isClosing flowing (c, []) (f t (c, [])).2) :
    Tended (((c.task? call).filter (·.stage.isClosing)).map (·.call)).isSome flowing (c, [])
      (withTask call f (c, [])).2 := by
  cases there : c.task? call with
  | none =>
    rw [withTask_of_none there]
    exact refl_of (Tended _ _) _
  | some t =>
    have gone := goes t
    rw [withTask_of_some there]
    cases closing : t.stage.isClosing with
    | false => simpa [Option.filter_some, closing] using gone
    | true => simpa [Option.filter_some, closing] using gone

end

theorem tended_step (now : Int) {c : Client} {e : Event} {call : Nat}
    (about : e.call? = some call) :
    Tended (c.closing? e).isSome (Flows c) (c, []) (step now c e) := by
  cases e with
  | begin call what =>
    cases what with
    | start => exact (apart_enqueue call _).tended false (c, [])
    | request method params timeout => exact (apart_request now call _ _ _ _).tended false (c, [])
    | notify method params => exact (apart_finishWriting call _ _).tended false (c, [])
    | hover q => exact (apart_request now call _ _ _ _).tended false (c, [])
    | hoverDocument q => exact (apart_enqueue call _).tended false (c, [])
    | shutDown => exact tended_shutDown now call (c, [])
  | spawned call failure =>
    refine ensures_withTask (R := Tended false (Flows c)) (fun t => ?_) (c, [])
    split
    · exact tended_greet now call _
    · exact (ensures_look fun c => apart_startFailed call _).tended false
    · exact ensures_pure _
  | document call content =>
    refine (Ensures.tended false (ensures_withTask fun t => ?_)) (c, [])
    split
    · exact apart_hoverContent now call _ _
    · exact apart_leave call _
    · exact ensures_pure _
  | resume call =>
    refine tended_withTask fun t => ?_
    rw [bind_apply, read_apply]
    dsimp only
    split
    · split
      · exact tended_goOnWriting now t (c, [])
      · exact tended_resume now t (c, [])
    · exact refl_of (Tended _ _) _
  | expired call =>
    refine tended_withTask fun t => ?_
    rw [bind_apply, read_apply]
    dsimp only
    split
    · exact refl_of (Tended _ _) _
    · exact tended_expire t (c, [])
  | cancelled call =>
    exact tended_withTask fun t =>
      ((apart_unwrite t.call).followed (fun _ => tended_cancel t) Apart.tended) (c, [])
  | _ => cases about

end Client

end TemplateTypes
