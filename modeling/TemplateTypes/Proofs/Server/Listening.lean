import TemplateTypes.Proofs.Server.Ageing
import TemplateTypes.Proofs.Server.Header

namespace TemplateTypes

open Text

namespace Frame

theorem next_closed (nesting : Nat) (bytes : Bytes) :
    next nesting bytes true = match next nesting bytes false with
      | .wait => .ended
      | outcome => outcome := by
  unfold next
  cases splitHeader? bytes with
  | none =>
    dsimp only
    split <;> rfl
  | some parts =>
    dsimp only
    split
    · rfl
    · cases announced none (headerLines (headerText parts.1)) with
      | error e => rfl
      | ok found =>
        cases found with
        | none => rfl
        | some n =>
          dsimp only
          split
          · rfl
          · split
            · rfl
            · cases parseBody nesting (parts.2.take n.toNat) <;> rfl

theorem next_of_wait {nesting : Nat} {bytes : Bytes} {closed : Bool}
    (waits : next nesting bytes closed = .wait) : next nesting bytes true = .ended := by
  cases closed with
  | false => rw [next_closed, waits]
  | true =>
    rw [next_closed] at waits
    cases first : next nesting bytes false <;> simp [first] at waits

theorem length_of_message {nesting : Nat} {bytes rest : Bytes} {closed : Bool} {payload : Json}
    (read : next nesting bytes closed = .message payload rest) : rest.length < bytes.length := by
  unfold next at read
  cases split : splitHeader? bytes with
  | none =>
    rw [split] at read
    grind
  | some parts =>
    obtain ⟨header, body⟩ := parts
    obtain ⟨front, _, whole⟩ := splitHeaderFrom_parts split
    have shorter : body.length < bytes.length := by
      rw [whole]
      simp
      omega
    rw [split] at read
    grind

end Frame

def Event.process? : Event → Option Nat
  | .output process _ | .outputEnded process | .readerResumed process => some process
  | _ => none

namespace Client

def isRead (c : Client) (process : Nat) : Bool :=
  (c.processes[process]?).any fun p => !p.reader.isOver

theorem isRead_iff {c : Client} {process : Nat} :
    c.isRead process = true ↔ ∃ p, c.processes[process]? = some p ∧ p.reader = .reading := by
  unfold isRead
  cases c.processes[process]? with
  | none => simp
  | some p => cases reader : p.reader <;> simp [ReaderState.isOver, reader]

theorem isRead_of_getElem? {c : Client} {process : Nat} {p : ServerProcess}
    (there : c.processes[process]? = some p) : c.isRead process = !p.reader.isOver := by
  simp [isRead, there]

theorem isRead_congr {c d : Client} {process : Nat}
    (same : d.processes[process]? = c.processes[process]?) :
    d.isRead process = c.isRead process := by
  unfold isRead
  rw [same]

theorem lt_of_isRead {c : Client} {process : Nat} (read : c.isRead process = true) :
    process < c.processes.length := by
  obtain ⟨p, there, _⟩ := isRead_iff.mp read
  exact (List.getElem?_eq_some_iff.mp there).1

structure Held (c d : Client) : Prop where
  setup : d.setup = c.setup
  current : d.current = c.current
  queue : d.startQueue = c.startQueue

theorem Held.refl (c : Client) : Held c c := ⟨rfl, rfl, rfl⟩

theorem Held.trans {c d f : Client} (first : Held c d) (second : Held d f) : Held c f :=
  ⟨second.setup.trans first.setup, second.current.trans first.current,
    second.queue.trans first.queue⟩

/-- Only the process and its reader have got on. -/
structure Elsewhere (process : Nat) (before after : World) : Prop where
  processes : ∀ other, other ≠ process → after.1.processes[other]? = before.1.processes[other]?
  readers : ∀ other, other ≠ process →
    after.1.isWriting (.reader other) = before.1.isWriting (.reader other)
  held : Held before.1 after.1

theorem Elsewhere.refl (process : Nat) (s : World) : Elsewhere process s s :=
  ⟨fun _ _ => rfl, fun _ _ => rfl, .refl s.1⟩

theorem Elsewhere.trans {process : Nat} {s t u : World} (first : Elsewhere process s t)
    (second : Elsewhere process t u) : Elsewhere process s u :=
  ⟨fun other apart => (second.processes other apart).trans (first.processes other apart),
    fun other apart => (second.readers other apart).trans (first.readers other apart),
    first.held.trans second.held⟩

/-- What reading comes to: the reader waits for more or until it can reply, or it has ended. -/
inductive WaitsOrEnds (arrived : List Json) (process : Nat) (before after : World) : Prop
  | waits (p : ServerProcess) (there : after.1.processes[process]? = some p)
    (reading : p.reader = .reading)
    (waits : after.1.isWriting (.reader process) = false →
      Frame.next p.nesting p.unread p.outputEnded = .wait)
    (initialized : after.1.initialized = before.1.initialized)
    (told : after.1.pending = tell (Message.firstAnswer · arrived) before.1.pending)
  | ends (ceased : after.1.isRead process = false)
    (idle : after.1.isWriting (.reader process) = false) (unready : after.1.initialized = false)

structure Listens (arrived : List Json) (process : Nat) (before after : World) : Prop where
  elsewhere : Elsewhere process before after
  own : WaitsOrEnds arrived process before after

theorem getElem?_setProcess_ne {c : Client} {process other : Nat} (apart : other ≠ process)
    (p : ServerProcess) : (c.setProcess process p).processes[other]? = c.processes[other]? :=
  List.getElem?_set_ne (Ne.symm apart)

theorem Listens.since (answers : Nat → Option (Except Fault Json)) {more arrived : List Json}
    {process : Nat} {before between after : World} (first : Elsewhere process before between)
    (initialized : between.1.initialized = before.1.initialized)
    (pending : between.1.pending = tell answers before.1.pending)
    (joins : ∀ id, (answers id).or (Message.firstAnswer id more) = Message.firstAnswer id arrived)
    (rest : Listens more process between after) : Listens arrived process before after := by
  refine ⟨first.trans rest.elsewhere, ?_⟩
  cases rest.own with
  | waits p there reading waits initialized' told =>
    refine .waits p there reading waits (initialized'.trans initialized) ?_
    rw [pending, tell_tell] at told
    simpa only [joins] using told
  | ends ceased idle unready => exact .ends ceased idle unready

theorem Listens.since_quiet {arrived : List Json} {process : Nat} {before between after : World}
    (first : Elsewhere process before between)
    (initialized : between.1.initialized = before.1.initialized)
    (pending : between.1.pending = before.1.pending) (rest : Listens arrived process between after) :
    Listens arrived process before after := by
  have untold : tell (fun _ => none) before.1.pending = before.1.pending :=
    tell_unanswered fun _ _ => .inr rfl
  exact rest.since (fun _ => none) first initialized (pending.trans untold.symm) fun _ => rfl

theorem listens_endReader {arrived : List Json} {process : Nat} {s : World}
    (idle : s.1.isWriting (.reader process) = false) {state : ReaderState}
    (finished : state.isOver = true) :
    Listens arrived process s (endReader process state s).2 := by
  unfold endReader
  rw [update_apply]
  dsimp only
  cases there : s.1.processes[process]? with
  | none =>
    have ceased : s.1.isRead process = false := by simp [isRead, there]
    exact ⟨⟨fun _ _ => rfl, fun _ _ => rfl, rfl, rfl, rfl⟩, .ends ceased idle rfl⟩
  | some p =>
    have ended : (s.1.setProcess process { p with reader := state }).processes[process]? =
        some { p with reader := state } := getElem?_setProcess there
    have ceased : (s.1.setProcess process { p with reader := state }).isRead process = false := by
      rw [isRead_of_getElem? ended]
      simp [finished]
    exact ⟨⟨fun other apart => getElem?_setProcess_ne apart _, fun _ _ => rfl, rfl, rfl, rfl⟩,
      .ends ceased idle rfl⟩

theorem Replied.readers {process : Nat} {payload : Json} {c : Client} {writes : List Writing}
    {new : List Effect} (replied : Replied process payload c writes new) {other : Nat}
    (apart : other ≠ process) :
    (withWrites writes c).isWriting (.reader other) = c.isWriting (.reader other) := by
  cases replied with
  | silent unasked => rfl
  | done id current asked known free takes => rfl
  | drains id current asked known free full =>
    simp [isWriting, withWrites, free, Ne.symm apart]
  | queues id current asked known busy => simp [isWriting, withWrites, Ne.symm apart]

theorem listens_readMessages (process fuel : Nat) {s : World} {alive ended : Bool}
    {unread : Bytes} {nesting : Nat} {input : Input}
    (there : s.1.processes[process]? = some ⟨alive, unread, ended, .reading, nesting, input⟩)
    (idle : s.1.isWriting (.reader process) = false) (enough : unread.length < fuel) :
    Listens (untilHeld s.1.keepsWaiting (Frame.messages nesting fuel unread ended)) process s
      (readMessages process fuel s).2 := by
  induction fuel generalizing s unread with
  | zero => cases enough
  | succ fuel ih =>
    unfold readMessages Frame.messages
    rw [bind_apply, read_apply]
    dsimp only
    rw [if_neg (by simp [idle]), there]
    dsimp only
    cases first : Frame.next nesting unread ended with
    | wait =>
      have untold : tell (Message.firstAnswer · []) s.1.pending = s.1.pending :=
        tell_unanswered fun _ _ => .inr rfl
      exact ⟨.refl _ _, .waits _ there rfl (fun _ => first) rfl untold.symm⟩
    | ended => exact listens_endReader idle rfl
    | failed e rest => exact listens_endReader idle (isOver_readerEnd e)
    | message payload rest =>
      have shorter := Frame.length_of_message first
      let taken : World :=
        (s.1.setProcess process ⟨alive, rest, ended, .reading, nesting, input⟩, s.2)
      have here : taken.1.processes[process]? =
          some ⟨alive, rest, ended, .reading, nesting, input⟩ := getElem?_setProcess there
      have alike : WritesAlike s.1 taken.1 := ⟨rfl, rfl, input_setProcess there rfl rfl⟩
      have took : Elsewhere process s taken :=
        ⟨fun other apart => getElem?_setProcess_ne apart _, fun _ _ => rfl, rfl, rfl, rfl⟩
      have goesOn : Listens (untilHeld s.1.keepsWaiting
          (payload :: Frame.messages nesting fuel rest ended)) process s
          ((handle process payload >>= readOn process fuel) taken).2 := by
        unfold untilHeld
        rw [bind_apply]
        rcases handle_cases process payload taken with
          ⟨⟨state, stopped⟩, _⟩ | ⟨writes, new, replied, dealt⟩
        · have finished := isOver_of_handle (congrArg Prod.fst stopped)
          rw [stopped]
          exact (listens_endReader (s := taken) idle finished).since_quiet took rfl rfl
        · rw [dealt]
          let told : World := (withWrites writes { taken.1 with
            pending := tell (Message.answerTo · payload) taken.1.pending }, taken.2 ++ new)
          have tells : Elsewhere process s told :=
            ⟨took.processes, fun other apart => replied.readers apart, rfl, rfl, rfl⟩
          refine Listens.since (Message.answerTo · payload) tells rfl rfl
            (fun id => (Message.firstAnswer_cons id payload _).symm) ?_
          rw [← alike.keepsWaiting]
          rcases replied.held with ⟨kept, free⟩ | ⟨held, waits⟩
          · rw [free]
            have still : WritesAlike taken.1 told.1 := ⟨rfl, kept, fun _ => rfl⟩
            have unheld : told.1.isWriting (.reader process) = false := by
              rw [← idle]
              unfold isWriting
              rw [still.writes]
              rfl
            rw [← still.keepsWaiting]
            exact ih here unheld (by omega)
          · rw [waits]
            change Listens _ process told (readMessages process fuel told).2
            rw [readMessages_held fuel held]
            have untold : tell (Message.firstAnswer · []) told.1.pending = told.1.pending :=
              tell_unanswered fun _ _ => .inr rfl
            refine ⟨.refl _ _, .waits _ here rfl (fun free => ?_) rfl untold.symm⟩
            cases held.symm.trans free
      cases payload with
      | null => exact listens_endReader idle rfl
      | _ => exact goesOn

theorem listens_readOutput {process : Nat} {s : World} {p : ServerProcess}
    (there : s.1.processes[process]? = some p) (reading : p.reader = .reading)
    (idle : s.1.isWriting (.reader process) = false) :
    Listens (s.1.heardFrom process) process s (readOutput process s).2 := by
  obtain ⟨alive, unread, ended, reader, nesting, input⟩ := p
  obtain rfl : reader = .reading := reading
  unfold readOutput heardFrom
  rw [bind_apply, read_apply]
  dsimp only
  rw [idle, there]
  exact listens_readMessages process _ there idle (Nat.lt_succ_self _)

theorem readOutput_quiet {process : Nat} {s : World}
    (quiet : s.1.isRead process = false ∨ s.1.isWriting (.reader process) = true) :
    readOutput process s = ((), s) ∧ s.1.heardFrom process = [] := by
  unfold readOutput heardFrom
  rw [bind_apply, read_apply]
  dsimp only
  cases there : s.1.processes[process]? with
  | none => exact ⟨rfl, ite_self _⟩
  | some p =>
    dsimp only
    cases writing : s.1.isWriting (.reader process) with
    | true => exact ⟨readMessages_held _ writing, rfl⟩
    | false =>
      have unread : p.reader.isOver = true := by
        rcases quiet with unread | held
        · simpa [isRead_of_getElem? there] using unread
        · cases writing.symm.trans held
      obtain ⟨alive, bytes, ended, reader, nesting, input⟩ := p
      unfold readMessages
      rw [bind_apply, read_apply]
      dsimp only
      rw [writing, if_neg (by decide), there]
      cases reader <;> first | exact ⟨rfl, rfl⟩ | cases unread

theorem elsewhere_adjust (process : Nat) (f : ServerProcess → ServerProcess) (c : Client) :
    Elsewhere process (c, []) (adjust process f c, []) := by
  unfold adjust
  split
  · exact ⟨fun other apart => getElem?_setProcess_ne apart _, fun _ _ => rfl, rfl, rfl, rfl⟩
  · exact .refl _ _

theorem isWriting_adjust (process : Nat) (f : ServerProcess → ServerProcess) (c : Client)
    (writer : Writer) : (adjust process f c).isWriting writer = c.isWriting writer := by
  rw [isWriting, (adjust_keeps process f c).2.2.2]
  rfl

theorem initialized_adjust (process : Nat) (f : ServerProcess → ServerProcess) (c : Client) :
    (adjust process f c).initialized = c.initialized := by
  unfold adjust
  split <;> rfl

theorem isRead_adjust {f : ServerProcess → ServerProcess} (reader : ∀ p, (f p).reader = p.reader)
    (process other : Nat) (c : Client) : (adjust process f c).isRead other = c.isRead other := by
  by_cases same : other = process
  · subst same
    unfold isRead
    rw [getElem?_adjust]
    cases c.processes[other]? <;> simp [reader]
  · exact isRead_congr ((elsewhere_adjust process f c).processes other same)

/-- Readers have read what there was, unless they write, and only who reads writes. -/
structure Attentive (c : Client) : Prop where
  caughtUp : ∀ (process : Nat) (p : ServerProcess), c.processes[process]? = some p →
    p.reader = .reading → c.isWriting (.reader process) = false →
      Frame.next p.nesting p.unread p.outputEnded = .wait
  awake : ∀ process, c.isWriting (.reader process) = true → c.isRead process = true

theorem Attentive.congr {c d : Client} (attentive : Attentive c)
    (processes : d.processes = c.processes)
    (writing : ∀ process, d.isWriting (.reader process) = c.isWriting (.reader process)) :
    Attentive d := by
  refine ⟨fun process p there reading idle => ?_, fun process held => ?_⟩
  · exact attentive.caughtUp process p (processes ▸ there) reading ((writing process).symm.trans idle)
  · rw [isRead_congr (congrArg (·[process]?) processes)]
    exact attentive.awake process ((writing process).symm.trans held)

/-- What a server puts out and how it takes what it is written: it is listened to, or nothing comes
    of it. -/
inductive Noticed (c : Client) (source : Option Nat) (arrived : List Json) (after : World) : Prop
  | listens (process : Nat) (own : source = some process)
    (read : c.isRead process = true ∨ c.isWriting (.reader process) = true ∧ arrived = [])
    (listens : Listens arrived process (c, []) after)
  | passes (silent : arrived = []) (initialized : after.1.initialized = c.initialized)
    (pending : after.1.pending = c.pending) (held : Held c after.1)
    (reads : ∀ process, after.1.isRead process = c.isRead process)
    (attentive : Attentive c → Attentive after.1)

theorem attentive_adjust {process : Nat} {f : ServerProcess → ServerProcess} {c d : Client}
    (reader : ∀ p, (f p).reader = p.reader)
    (quiet : c.isRead process = false ∨ c.isWriting (.reader process) = true ∨
      ∀ p, (f p).unread = p.unread ∧ (f p).outputEnded = p.outputEnded ∧
        (f p).nesting = p.nesting)
    (processes : d.processes = (adjust process f c).processes)
    (writing : ∀ writer, d.isWriting writer = c.isWriting writer) (attentive : Attentive c) :
    Attentive d := by
  have reads : ∀ other, d.isRead other = c.isRead other := by
    intro other
    rw [← isRead_adjust reader process other c]
    exact isRead_congr (congrArg (·[other]?) processes)
  constructor
  · intro other p there reading idle
    rw [writing] at idle
    rw [processes] at there
    by_cases same : other = process
    · subst same
      rw [getElem?_adjust] at there
      obtain ⟨q, known, rfl⟩ := Option.map_eq_some_iff.mp there
      rw [reader] at reading
      rcases quiet with unread | held | untouched
      · cases unread.symm.trans (isRead_iff.mpr ⟨q, known, reading⟩)
      · cases idle.symm.trans held
      · obtain ⟨bytes, ended, nesting⟩ := untouched q
        rw [bytes, ended, nesting]
        exact attentive.caughtUp other q known reading idle
    · rw [(elsewhere_adjust process f c).processes other same] at there
      exact attentive.caughtUp other p there reading idle
  · intro other held
    rw [writing] at held
    rw [reads]
    exact attentive.awake other held

theorem noticed_adjusted {process : Nat} {f : ServerProcess → ServerProcess}
    (reader : ∀ p, (f p).reader = p.reader) (c : Client) :
    Noticed c (some process) ((adjust process f c).heardFrom process)
      ((update (adjust process f) >>= fun _ => readOutput process) (c, [])).2 := by
  rw [bind_apply, update_apply]
  have elsewhere := elsewhere_adjust process f c
  have initialized := initialized_adjust process f c
  have pending := (adjust_keeps process f c).2.2.1
  have reads := isRead_adjust reader process process c
  have writes := isWriting_adjust process f c
  by_cases quiet : c.isRead process = false ∨ c.isWriting (.reader process) = true
  · obtain ⟨same, silent⟩ := readOutput_quiet (s := (adjust process f c, []))
      (by rwa [reads, writes])
    rw [same]
    exact .passes silent initialized pending elsewhere.held
      (fun other => isRead_adjust reader process other c)
      (attentive_adjust reader (quiet.imp_right .inl) rfl writes)
  · rw [not_or, Bool.not_eq_false, Bool.not_eq_true] at quiet
    obtain ⟨read, idle⟩ := quiet
    obtain ⟨p, there, reading⟩ := isRead_iff.mp (reads.trans read)
    have listens := listens_readOutput (s := (adjust process f c, [])) there reading
      ((writes _).trans idle)
    exact .listens process rfl (.inl read) (listens.since_quiet elsewhere initialized pending)

theorem isWriting_wake (process : Nat) (state : Input) (c : Client) (writer : Writer) :
    (wake process state c).isWriting writer = c.isWriting writer := by
  simp [isWriting, wake, List.any_map, Function.comp_def]

theorem noticed_readerResumed (now : Int) {c : Client} (lined : Lined c) (process : Nat) :
    Noticed c (some process) (c.arrived (.readerResumed process))
      (step now c (.readerResumed process)) := by
  obtain ⟨sent, after, resumes, resumed⟩ := resumeWrite_cases (.reader process) (c, [])
  have hears : c.arrived (.readerResumed process) = heardOn process (sent, after) :=
    congrArg (heardOn process) resumed
  rw [step_readerResumed now resumed, hears]
  rcases resumes.advances with ⟨_, rfl, rfl⟩ | ⟨w, more, v, new, advances⟩
  · exact .passes rfl rfl rfl (.refl c) (fun _ => rfl) id
  have writes : c.writes = w :: more := advances.writes
  have writing : c.isWriting (.reader process) = true := by
    simp [isWriting, writes, advances.own]
  have idle : sent ≠ .waits → after.1.isWriting (.reader process) = false := by
    intro goesOn
    cases v with
    | none => exact advances.idle lined
    | some x => exact absurd (advances.waits.mpr rfl) goesOn
  have alike : ∀ writer, writer ≠ .reader process ∨ sent = .waits →
      after.1.isWriting writer = c.isWriting writer := by
    intro writer apart
    have own : ∀ x ∈ v, x.writer = .reader process := fun x there => (advances.goesOn x there).1
    rw [advances.result, isWriting, isWriting, writes, List.any_cons, advances.own]
    change (v.toList ++ more).any _ = _
    rw [List.any_append]
    congr 1
    cases v with
    | none =>
      rcases apart with apart | waits
      · simp [Ne.symm apart]
      · cases advances.waits.mp waits
    | some x => simp [own x rfl]
  have initialized : after.1.initialized = c.initialized := by rw [advances.result]; rfl
  have pending : after.1.pending = c.pending := by rw [advances.result]; rfl
  have processes : after.1.processes = c.processes := by rw [advances.result]; rfl
  have reads : ∀ other, after.1.isRead other = c.isRead other :=
    fun other => isRead_congr (congrArg (·[other]?) processes)
  have elsewhere : Elsewhere process (c, []) after := by
    refine ⟨fun other _ => congrArg (·[other]?) processes, fun other apart => ?_, ?_⟩
    · exact alike _ (.inl fun same => apart (Writer.reader.inj same))
    · rw [advances.result]
      exact ⟨rfl, rfl, rfl⟩
  cases sent with
  | waits =>
    refine .passes rfl initialized pending elsewhere.held reads fun attentive => ?_
    exact attentive.congr processes fun other => alike _ (.inr rfl)
  | failed e =>
    have listens : Listens [] process after (endReader process (replyEnd e) after).2 :=
      listens_endReader (idle (by simp)) (isOver_replyEnd e)
    exact .listens process rfl (.inr ⟨writing, rfl⟩)
      (listens.since_quiet elsewhere initialized pending)
  | done =>
    by_cases read : c.isRead process = true
    · obtain ⟨p, there, reading⟩ := isRead_iff.mp ((reads process).trans read)
      have listens := listens_readOutput there reading (idle (by simp))
      exact .listens process rfl (.inl read) (listens.since_quiet elsewhere initialized pending)
    · rw [Bool.not_eq_true] at read
      obtain ⟨same, silent⟩ := readOutput_quiet (.inl ((reads process).trans read))
      change Noticed c _ _ (readOutput process after).2
      rw [same]
      refine .passes silent initialized pending elsewhere.held reads fun attentive => ?_
      cases read.symm.trans (attentive.awake process writing)

theorem noticed_step (now : Int) {c : Client} {e : Event} (lined : Lined c)
    (about : e.call? = none) : Noticed c e.process? (c.arrived e) (step now c e) := by
  cases e with
  | output process bytes =>
    exact noticed_adjusted (f := fun p => { p with unread := p.unread ++ bytes }) (fun _ => rfl) c
  | outputEnded process =>
    exact noticed_adjusted (f := fun p => { p with outputEnded := true }) (fun _ => rfl) c
  | exited process =>
    let exited (p : ServerProcess) : ServerProcess := { p with alive := false }
    exact .passes rfl (initialized_adjust process exited c) (adjust_keeps process exited c).2.2.1
      (elsewhere_adjust process exited c).held
      (fun other => isRead_adjust (f := exited) (fun _ => rfl) _ other c)
      (attentive_adjust (f := exited) (fun _ => rfl) (.inr (.inr fun _ => ⟨rfl, rfl, rfl⟩)) rfl
        (isWriting_adjust process exited c))
  | input process state =>
    let noticed (p : ServerProcess) : ServerProcess := { p with input := p.input.next state }
    have held := (elsewhere_adjust process noticed c).held
    exact .passes rfl (initialized_adjust process noticed c)
      (adjust_keeps process noticed c).2.2.1 ⟨held.setup, held.current, held.queue⟩
      (fun other => isRead_adjust (f := noticed) (fun _ => rfl) _ other c)
      (attentive_adjust (f := noticed) (fun _ => rfl) (.inr (.inr fun _ => ⟨rfl, rfl, rfl⟩)) rfl
        fun writer => (isWriting_wake process state _ writer).trans
          (isWriting_adjust process noticed c writer))
  | readerResumed process => exact noticed_readerResumed now lined process
  | _ => cases about

theorem Noticed.source {c : Client} {source : Option Nat} {arrived : List Json} {after : World}
    (noticed : Noticed c source arrived after) (heard : arrived ≠ []) :
    ∃ process, source = some process ∧ c.isRead process = true := by
  cases noticed with
  | listens process own read listens =>
    exact ⟨process, own, read.resolve_right fun held => heard held.2⟩
  | passes silent => exact absurd silent heard

theorem Noticed.held {c : Client} {source : Option Nat} {arrived : List Json}
    {after : World} (noticed : Noticed c source arrived after) : Held c after.1 := by
  cases noticed with
  | listens process own read listens => exact listens.elsewhere.held
  | passes silent initialized pending held reads attentive => exact held

theorem Noticed.attentive {c : Client} {source : Option Nat} {arrived : List Json}
    {after : World} (noticed : Noticed c source arrived after) (attentive : Attentive c) :
    Attentive after.1 := by
  cases noticed with
  | passes silent initialized pending held reads attends => exact attends attentive
  | listens process own read listens =>
    obtain ⟨elsewhere, own⟩ := listens
    constructor
    · intro other p there reading idle
      by_cases same : other = process
      · subst same
        cases own with
        | waits q known reads waits initialized told =>
          obtain rfl := Option.some.inj (known.symm.trans there)
          exact waits idle
        | ends ceased silent unready =>
          cases ceased.symm.trans (isRead_iff.mpr ⟨p, there, reading⟩)
      · rw [elsewhere.processes other same] at there
        rw [elsewhere.readers other same] at idle
        exact attentive.caughtUp other p there reading idle
    · intro other writing
      by_cases same : other = process
      · subst same
        cases own with
        | waits q known reads waits initialized told => exact isRead_iff.mpr ⟨q, known, reads⟩
        | ends ceased silent unready => cases silent.symm.trans writing
      · rw [elsewhere.readers other same] at writing
        rw [isRead_congr (elsewhere.processes other same)]
        exact attentive.awake other writing

theorem Tended.attentive {closes : Bool} {flowing : Prop} {before after : World}
    (tended : Tended closes flowing before after) (attentive : Attentive before.1) :
    Attentive after.1 := by
  cases tended with
  | apart apart => exact attentive.congr apart.processes apart.writes.same
  | spawned nesting processes current reader initialized settled writes =>
    refine ⟨fun process p there reading idle => ?_, fun process held => ?_⟩
    · rw [processes, List.getElem?_append] at there
      split at there
      · exact attentive.caughtUp process p there reading ((writes.same process).symm.trans idle)
      · obtain rfl := List.mem_singleton.mp (List.mem_of_getElem? there)
        rfl
    · have read := attentive.awake process ((writes.same process).symm.trans held)
      rw [← read]
      apply isRead_congr
      rw [processes, List.getElem?_append_left (lt_of_isRead read)]
  | ready processes current reader known ready settled writes =>
    exact attentive.congr processes writes.same
  | stopped closing stopped q waited known reads processes current reader unready writes =>
    refine ⟨fun process p there reading idle => ?_, fun process held => ?_⟩
    · rw [processes, List.getElem?_set] at there
      split at there
      · split at there
        · obtain rfl := Option.some.inj there
          cases reading
        · cases there
      · rename_i apart
        have free := writes.readers process
        rw [idle] at free
        exact attentive.caughtUp process p there reading (by simpa [apart] using free)
    · rw [writes.readers, Bool.and_eq_true, bne_iff_ne, Ne, Option.some.injEq] at held
      rw [← attentive.awake process held.1]
      apply isRead_congr
      rw [processes, List.getElem?_set_ne held.2]
  | forgot closing processes current reader unready settled writes =>
    exact attentive.congr processes writes.same

theorem attentive_run {c : Client} {events : List (Int × Event)} (orderly : Orderly c events)
    (attentive : Attentive c) : Attentive (run c events).1 := by
  induction events generalizing c with
  | nil => exact attentive
  | cons event more ih =>
    refine ih (orderly.step event.1) ?_
    cases about : event.2.call? with
    | some call => exact (tended_step event.1 about).attentive attentive
    | none => exact (noticed_step event.1 orderly.booked.lined about).attentive attentive

theorem attentive_ofSetup (setup : ServerSetup) : Attentive (ofSetup setup) :=
  ⟨fun process p there => by simp [ofSetup] at there, fun _ held => by cases held⟩

end Client

end TemplateTypes
