import TemplateTypes.Proofs.Server.Consulting

namespace TemplateTypes

open Text

inductive Notice
  | opened (uri : Text)
  | closed (uri : Text)

def Notice.arePaired : List Notice → Bool
  | [] => true
  | .opened uri :: .closed uri' :: more => uri == uri' && arePaired more
  | _ => false

theorem Notice.arePaired_append {earlier later : List Notice} (first : arePaired earlier = true)
    (second : arePaired later = true) : arePaired (earlier ++ later) = true := by
  induction earlier using arePaired.induct with
  | case1 => exact second
  | case2 uri uri' more ih =>
    obtain ⟨same, rest⟩ := Bool.and_eq_true_iff.mp first
    exact Bool.and_eq_true_iff.mpr ⟨same, ih rest⟩
  | case3 notices nonempty unpaired =>
    rw [arePaired] at first
    · cases first
    all_goals assumption

namespace Message

def documentUri? (payload : Json) : Option Text :=
  match ((payload.member? "params".toList).bind (·.member? "textDocument".toList)).bind
      (·.member? "uri".toList) with
  | some (.str uri) => some uri
  | _ => none

def notice? (payload : Json) : Option Notice :=
  match payload.member? "method".toList with
  | some (.str method) =>
    if method = openMethod then (documentUri? payload).map .opened
    else if method = closeMethod then (documentUri? payload).map .closed
    else none
  | _ => none

theorem notice?_request (id : Nat) {method : Text} (params : Json) (opens : method ≠ openMethod)
    (closes : method ≠ closeMethod) : notice? (request id method params) = none := by
  have named : (request id method params).member? "method".toList = some (.str method) := by
    rw [request, Json.member?_object]
    simp [version, List.lookup_cons]
  rw [notice?, named]
  dsimp only
  rw [if_neg opens, if_neg closes]

theorem notice?_reply (id : Json) : notice? (reply id) = none := by
  rw [notice?, reply, Json.member?_object]
  simp [version, List.lookup_cons]

theorem method_notification (method : Text) (params : Json) :
    (notification method params).member? "method".toList = some (.str method) := by
  rw [notification, Json.member?_object]
  simp [version, List.lookup_cons]

theorem notice?_initialized : notice? initialized = none := by
  rw [notice?, initialized, method_notification]
  dsimp only
  rw [if_neg (by decide), if_neg (by decide)]

theorem documentUri?_notification (method uri : Text) (more : List (String × Json)) :
    documentUri? (notification method
      (.object [("textDocument", .object (("uri", .str uri) :: more))])) = some uri := by
  have params : (notification method (.object [("textDocument",
      .object (("uri", .str uri) :: more))])).member? "params".toList =
      some (.object [("textDocument", .object (("uri", .str uri) :: more))]) := by
    rw [notification, Json.member?_object]
    simp [version, List.lookup_cons]
  unfold documentUri?
  rw [params, Option.bind_some, Json.member?_object, List.lookup_cons_self, Option.bind_some,
    Json.member?_object, List.lookup_cons_self]

theorem notice?_opened (uri content : Text) :
    notice? (opened uri content) = some (.opened uri) := by
  rw [notice?, opened, method_notification]
  dsimp only
  rw [if_pos rfl, openParams, documentUri?_notification]
  rfl

theorem notice?_closed (uri : Text) : notice? (closed uri) = some (.closed uri) := by
  rw [notice?, closed, method_notification]
  dsimp only
  rw [if_neg (by decide), if_pos rfl, documentParams, documentUri?_notification]
  rfl

end Message

namespace Effect

def notice? (process : Nat) : Effect → Option Notice
  | .write other payload => if other = process then Message.notice? payload else none
  | _ => none

theorem notice?_write_none {payload : Json} (none : Message.notice? payload = .none)
    (process other : Nat) : (Effect.write other payload).notice? process = .none := by
  unfold notice?
  dsimp only
  rw [none]
  exact ite_self _

end Effect

def Stage.document? : Stage → Option Text
  | .answer _ _ (.candidatesOf uri) => some uri
  | _ => none

theorem Stage.document?_of_isStarting {stage : Stage} (starting : stage.isStarting = true) :
    stage.document? = none := by
  cases stage <;> first | rfl | cases starting

namespace Client

def documents (process : Nat) (effects : List Effect) : List Notice :=
  effects.filterMap (Effect.notice? process)

def stillOpen (c : Client) (process : Nat) : List Notice :=
  if c.current = some process then (c.tasks.filterMap (·.stage.document?)).map .opened else []

/-- A call that begins starts the server or asks about a document, and begins when there is no
    other one. No process makes anyone wait who writes to it. -/
def asksAlone (c : Client) (e : Event) : Bool :=
  e.isConsulting && !e.fills && (e.begun?.isNone || c.tasks.isEmpty)

/-- Every process that can be written to has been told of documents in pairs, but for one that is
    asked about. -/
structure Tidy (s : World) : Prop where
  consulted : Consulted s.1
  flows : Flows s.1
  alone : s.1.tasks.length ≤ 1
  unknown : ∀ process, s.1.processes.length ≤ process → documents process s.2 = []
  paired : ∀ process, s.1.input process = .taking → ∃ closed, Notice.arePaired closed = true ∧
    documents process s.2 = closed ++ s.1.stillOpen process

theorem documents_append (process : Nat) (effects more : List Effect) :
    documents process (effects ++ more) = documents process effects ++ documents process more :=
  List.filterMap_append

theorem documents_cons (process : Nat) (e : Effect) (more : List Effect) :
    documents process (e :: more) = (e.notice? process).toList ++ documents process more := by
  unfold documents
  rw [List.filterMap_cons]
  cases e.notice? process <;> rfl

theorem documents_ended (process call : Nat) (outcome : Outcome) :
    documents process [.finish call outcome] = [] := rfl

section

variable {c d : Client} {effects new : List Effect} {now : Int} {e : Event} {call : Nat}

theorem Tidy.goesOn (tidy : Tidy (c, effects)) (consulted : Consulted d) (flows : Flows d)
    (alone : d.tasks.length ≤ 1) (known : c.processes.length ≤ d.processes.length)
    (unknown : ∀ process, c.processes.length ≤ process → documents process new = [])
    (balance : ∀ process, d.input process = .taking →
      c.processes.length ≤ process ∧ d.stillOpen process = [] ∨
      c.input process = .taking ∧ ∃ pairs, Notice.arePaired pairs = true ∧
        c.stillOpen process ++ documents process new = pairs ++ d.stillOpen process) :
    Tidy (d, effects ++ new) := by
  refine ⟨consulted, flows, alone, fun process beyond => ?_, fun process takes => ?_⟩
  · have before := Nat.le_trans known beyond
    rw [documents_append, tidy.unknown process before, unknown process before]
    rfl
  · rw [documents_append]
    rcases balance process takes with ⟨young, idle⟩ | ⟨old, pairs, paired, whole⟩
    · rw [tidy.unknown process young, unknown process young, idle]
      exact ⟨[], rfl, rfl⟩
    · obtain ⟨closed, earlier, told⟩ := tidy.paired process old
      refine ⟨closed ++ pairs, Notice.arePaired_append earlier paired, ?_⟩
      rw [told, List.append_assoc, whole, List.append_assoc]

theorem stillOpen_of_quiet {own : Option CallTask} (tasks : c.tasks = own.toList)
    (quiet : ∀ t ∈ own, t.stage.document? = none) (process : Nat) : c.stillOpen process = [] := by
  unfold stillOpen
  rw [tasks]
  cases own with
  | none => exact ite_self _
  | some t => simp [quiet t rfl]

theorem stillOpen_of_open {t : CallTask} {uri : Text} {process : Nat} (tasks : c.tasks = [t])
    (document : t.stage.document? = some uri) (current : c.current = some process) :
    c.stillOpen process = [.opened uri] := by
  simp [stillOpen, current, tasks, document]

theorem stillOpen_of_ne {process : Nat} (other : c.current ≠ some process) :
    c.stillOpen process = [] := if_neg other

theorem AfterStart.document?_task? (a : AfterStart) :
    ∀ t ∈ a.task? call, t.stage.document? = none := by
  cases a with
  | finish => simp [AfterStart.task?]
  | hover q => simp [AfterStart.task?, Stage.document?]

theorem documents_effect (a : AfterStart) (process : Nat) :
    documents process [a.effect call] = [] := by
  cases a <;> rfl

theorem documents_opens (process other : Nat) (q : Question) (content : Text) (id : Nat) :
    documents process [.write other (Message.opened q.uri content),
      .write other (Message.request id Message.hoverMethod (Message.hoverParams q))] =
      if other = process then [.opened q.uri] else [] := by
  have asked : Message.notice? (Message.request id Message.hoverMethod (Message.hoverParams q)) =
      none := Message.notice?_request id _ (by decide) (by decide)
  rw [documents_cons, documents_cons, Effect.notice?_write_none asked, Effect.notice?,
    Message.notice?_opened]
  split <;> rfl

theorem documents_closes (process other call : Nat) (uri : Text) (outcome : Outcome) :
    documents process [.write other (Message.closed uri), .finish call outcome] =
      if other = process then [.closed uri] else [] := by
  rw [documents_cons, documents_ended, Effect.notice?, Message.notice?_closed]
  split <;> rfl

variable {after : World}

theorem Shifted.alone {own : Option CallTask} (shifted : Shifted call own c d)
    (tasks : c.tasks = (c.task? call).toList) : d.tasks = own.toList := by
  have none : (withoutTask call c).tasks = [] := by
    rw [List.eq_nil_iff_forall_not_mem]
    intro t member
    obtain ⟨old, apart⟩ := mem_withoutTask.mp member
    rw [tasks] at old
    exact apart (task?_call (Option.mem_toList.mp old))
  rw [shifted.tasks, none, List.nil_append]

theorem balanced_quiet {own : Option CallTask} (tasks : c.tasks = (c.task? call).toList)
    (before : ∀ t ∈ c.task? call, t.stage.document? = none) (later : after.1.tasks = own.toList)
    (quiet : ∀ t ∈ own, t.stage.document? = none) {process : Nat}
    (silent : documents process after.2 = []) :
    ∃ pairs, Notice.arePaired pairs = true ∧
      c.stillOpen process ++ documents process after.2 = pairs ++ after.1.stillOpen process := by
  refine ⟨[], rfl, ?_⟩
  rw [stillOpen_of_quiet tasks before, stillOpen_of_quiet later quiet, silent]

theorem input_of_processes (same : d.processes = c.processes) (process : Nat) :
    d.input process = c.input process := by
  unfold Client.input
  rw [same]

theorem lt_of_taking {process : Nat} (takes : c.input process = .taking) :
    process < c.processes.length := by
  unfold Client.input at takes
  cases there : c.processes[process]? with
  | none => simp [there] at takes
  | some p => exact (List.getElem?_eq_some_iff.mp there).1

theorem Advance.balanced (advance : Advance now c call e after) (flows : Flows c)
    (fresh : BeginsNew c e) (tasks : c.tasks = (c.task? call).toList) {process : Nat}
    (takes : after.1.input process = .taking) :
    c.processes.length ≤ process ∧ after.1.stillOpen process = [] ∨
      c.input process = .taking ∧ ∃ pairs, Notice.arePaired pairs = true ∧
        c.stillOpen process ++ documents process after.2 = pairs ++ after.1.stillOpen process := by
  have alone := fun {own} (shifted : Shifted call own c after.1) => shifted.alone tasks
  have only : ∀ {t}, c.task? call = some t → t.stage.document? = none →
      ∀ u ∈ c.task? call, u.stage.document? = none := by
    intro t there quiet u same
    obtain rfl := Option.some.inj (there.symm.trans same)
    exact quiet
  have turning : ∀ {a}, c.Turns call e a → ∀ u ∈ c.task? call, u.stage.document? = none := by
    rintro a (begins | ⟨deadline, there⟩)
    · rw [fresh call (by rw [begins]; rfl)]
      simp
    · exact only there rfl
  cases advance with
  | idle unmoved same =>
    subst same
    exact .inr ⟨takes, [], rfl, List.append_nil _⟩
  | queues a begins turn calm queue pending effects =>
    rw [input_of_processes calm.processes] at takes
    exact .inr ⟨takes, balanced_quiet tasks (turning (.inl begins)) (alone calm.toShifted)
      (by simp [Stage.document?]) (by rw [effects]; rfl)⟩
  | spawns a turns turn unready calm queue effects =>
    rw [input_of_processes calm.processes] at takes
    exact .inr ⟨takes, balanced_quiet tasks (turning turns) (alone calm.toShifted)
      (by simp [Stage.document?]) (by rw [effects]; rfl)⟩
  | starts a turns turn ready calm queue effects =>
    rw [input_of_processes calm.processes] at takes
    exact .inr ⟨takes, balanced_quiet tasks (turning turns) (alone calm.toShifted)
      (AfterStart.document?_task? a) (by rw [effects, documents_effect])⟩
  | greets a accepted deadline there shifted queue idle processes current initialized pending
      effects =>
    have quiet : ∀ t ∈ some (CallTask.mk call (.handshake (c.lastRequest + 1) a)
        (some (now + c.setup.requestTimeout))), t.stage.document? = none := by
      simp [Stage.document?]
    rcases Nat.lt_or_ge process c.processes.length with old | young
    · have same : after.1.input process = c.input process := by
        unfold Client.input
        rw [processes, List.getElem?_append_left old]
      rw [same] at takes
      refine .inr ⟨takes, balanced_quiet tasks (only there rfl) (alone shifted) quiet ?_⟩
      rw [effects, documents_cons,
        Effect.notice?_write_none (Message.notice?_request _ _ (by decide) (by decide))]
      rfl
    · exact .inl ⟨young, stillOpen_of_quiet (alone shifted) quiet process⟩
  | greeted a request deadline there idle result answered own current can shifted queue processes
      same ready effects =>
    rw [input_of_processes processes] at takes
    refine .inr ⟨takes, balanced_quiet tasks (only there rfl) (alone shifted)
      (AfterStart.document?_task? a) ?_⟩
    rw [effects, documents_cons, Effect.notice?_write_none Message.notice?_initialized,
      documents_effect]
    rfl
  | startFails outcome starting failure calm queue effects =>
    rw [input_of_processes calm.processes] at takes
    exact .inr ⟨takes, balanced_quiet tasks
      (fun t there => Stage.document?_of_isStarting (starting t there)) (alone calm.toShifted)
      (by simp) (by rw [effects]; rfl)⟩
  | opens q content deadline there own current can later calm queue effects =>
    rw [input_of_processes calm.processes] at takes
    have before := stillOpen_of_quiet tasks (only there rfl) process
    refine .inr ⟨takes, [], rfl, ?_⟩
    rw [before, effects, documents_opens]
    split
    · rename_i same
      subst same
      exact (stillOpen_of_open (alone calm.toShifted) rfl (calm.current.trans current)).symm
    · rename_i apart
      refine (stillOpen_of_ne ?_).symm
      rw [calm.current, current]
      exact fun same => apart (Option.some.inj same)
  | closes request method uri deadline there own current can outcome calm queue effects =>
    rw [input_of_processes calm.processes] at takes
    have later : after.1.stillOpen process = [] :=
      stillOpen_of_quiet (alone calm.toShifted) (by simp) process
    have open_ : c.tasks = [⟨call, .answer request method (.candidatesOf uri), deadline⟩] := by
      rw [tasks, there]
      rfl
    rw [later, effects, documents_closes]
    split
    · rename_i same
      subst same
      rw [stillOpen_of_open open_ rfl current]
      exact .inr ⟨takes, [.opened uri, .closed uri], by simp [Notice.arePaired], rfl⟩
    · rename_i apart
      rw [stillOpen_of_ne (by rw [current]; exact fun same => apart (Option.some.inj same))]
      exact .inr ⟨takes, [], rfl, rfl⟩
  | hoverFails t there hovering stopped outcome calm queue effects =>
    rw [input_of_processes calm.processes] at takes
    have later : after.1.stillOpen process = [] :=
      stillOpen_of_quiet (alone calm.toShifted) (by simp) process
    have before : c.stillOpen process = [] := by
      rcases stopped with reading | stopped
      · refine stillOpen_of_quiet tasks (only there ?_) process
        obtain ⟨number, stage, deadline⟩ := t
        cases stage <;> first | rfl | cases reading
      · refine stillOpen_of_ne fun current => ?_
        rw [isReachable_of_taking current takes] at stopped
        cases stopped
    exact .inr ⟨takes, [], rfl, by rw [before, later, effects]; rfl⟩
  | drags slow => exact absurd flows slow

theorem Advance.unknown (advance : Advance now c call e after) (flows : Flows c) {process : Nat}
    (beyond : c.processes.length ≤ process) : documents process after.2 = [] := by
  have apart : ∀ {own}, c.input own = .taking → own ≠ process := by
    rintro own takes rfl
    have := lt_of_taking takes
    omega
  cases advance with
  | idle unmoved same => rw [same]; rfl
  | queues a begins turn calm queue pending effects => rw [effects]; rfl
  | spawns a turns turn unready calm queue effects => rw [effects]; rfl
  | starts a turns turn ready calm queue effects => rw [effects, documents_effect]
  | greets a accepted deadline there shifted queue idle processes current initialized pending
      effects =>
    rw [effects, documents_cons,
      Effect.notice?_write_none (Message.notice?_request _ _ (by decide) (by decide))]
    rfl
  | greeted a request deadline there idle result answered own current takes shifted queue processes
      same ready effects =>
    rw [effects, documents_cons, Effect.notice?_write_none Message.notice?_initialized,
      documents_effect]
    rfl
  | startFails outcome starting failure calm queue effects => rw [effects]; rfl
  | opens q content deadline there own current takes later calm queue effects =>
    rw [effects, documents_opens, if_neg (apart takes)]
  | closes request method uri deadline there own current takes outcome calm queue effects =>
    rw [effects, documents_closes, if_neg (apart takes)]
  | hoverFails t there hovering stopped outcome calm queue effects => rw [effects]; rfl
  | drags slow => exact absurd flows slow

theorem Advance.shifted (advance : Advance now c call e after) (flows : Flows c) :
    after = (c, []) ∨ ∃ own, Shifted call own c after.1 := by
  cases advance with
  | idle unmoved same => exact .inl same
  | queues a begins turn calm queue pending effects => exact .inr ⟨_, calm.toShifted⟩
  | spawns a turns turn unready calm queue effects => exact .inr ⟨_, calm.toShifted⟩
  | starts a turns turn ready calm queue effects => exact .inr ⟨_, calm.toShifted⟩
  | greets a accepted deadline there shifted => exact .inr ⟨_, shifted⟩
  | greeted a request deadline there idle result answered process own takes shifted =>
    exact .inr ⟨_, shifted⟩
  | startFails outcome starting failure calm queue effects => exact .inr ⟨_, calm.toShifted⟩
  | opens q content deadline there process own takes later calm queue effects =>
    exact .inr ⟨_, calm.toShifted⟩
  | closes request method uri deadline there process own takes outcome calm queue effects =>
    exact .inr ⟨_, calm.toShifted⟩
  | hoverFails t there hovering stopped outcome calm queue effects => exact .inr ⟨_, calm.toShifted⟩
  | drags slow => exact absurd flows slow

/-- Whom one can write to one could write to before. -/
theorem taking_of_aged (aged : Aged c.processes d.processes) (flows : Flows c) {process : Nat}
    (known : process < c.processes.length) (takes : d.input process = .taking) :
    c.input process = .taking := by
  have there := List.getElem?_eq_getElem known
  obtain ⟨q, later, becomes⟩ := aged process _ there
  have room : c.input process ≠ .full := flows.not_full
  unfold Client.input at takes room ⊢
  rw [later] at takes
  rw [there] at room ⊢
  dsimp only at takes room ⊢
  split at takes
  · rename_i alive
    rw [if_pos (becomes.alive alive)] at room ⊢
    cases own : c.processes[process].input with
    | taking => rfl
    | full => exact absurd own room
    | lost reason =>
      have lost := becomes.lost (by rw [own]; rfl)
      rw [takes] at lost
      cases lost
  · cases takes

end

section

variable {s : World} {now : Int} {e : Event}

theorem beginsNew_of_asksAlone {c : Client} (alone : c.asksAlone e = true) : BeginsNew c e := by
  intro call begins
  have none : c.tasks = [] := by
    simpa [asksAlone, begins] using (Bool.and_eq_true_iff.mp alone).2
  rw [task?_eq_none_iff, none]
  simp

theorem tasks_of_asksAlone {c : Client} (few : c.tasks.length ≤ 1) {call : Nat} {t : CallTask}
    (there : c.task? call = some t) : c.tasks = (c.task? call).toList := by
  rw [there]
  obtain ⟨u, one⟩ : ∃ u, c.tasks = [u] := by
    have member := mem_of_task? there
    match tasks : c.tasks with
    | [] => rw [tasks] at member; cases member
    | [u] => exact ⟨u, rfl⟩
    | u :: v :: more => rw [tasks] at few; simp at few
  have member := mem_of_task? there
  rw [one, List.mem_singleton] at member
  rw [one, member]
  rfl

theorem documents_of_heard {arrived : List Json} {c : Client} {after : World}
    (heard : Heard arrived (c, []) after) (process : Nat) : documents process after.2 = [] := by
  unfold documents
  rw [List.filterMap_eq_nil_iff]
  intro effect member
  obtain ⟨other, id, _, rfl⟩ := heard.replied member
  exact Effect.notice?_write_none (Message.notice?_reply id) process other

theorem Tidy.hears (tidy : Tidy s) (consulted : Consulted (step now s.1 e).1)
    (flows : Flows (step now s.1 e).1) (about : e.call? = none) : Tidy ((step now s.1 e).1, s.2 ++ (step now s.1 e).2) := by
  have heard := heard_step now tidy.consulted.booked.lined about
  have held := (noticed_step now tidy.consulted.booked.lined about).held
  have moved := step_moved now s.1 e
  have refused : s.1.spawnsFor e = false := by cases e <;> first | rfl | cases about
  have length := moved.length refused
  have silent := documents_of_heard heard
  have same : ∀ process, (step now s.1 e).1.stillOpen process = s.1.stillOpen process := by
    intro process
    unfold stillOpen
    rw [held.current, heard.tasks]
  refine Tidy.goesOn (c := s.1) tidy consulted flows ?_ (Nat.le_of_eq length.symm)
    (fun process _ => silent process) fun process takes => .inr ⟨?_, [], rfl, ?_⟩
  · rw [heard.tasks]
    exact tidy.alone
  · exact taking_of_aged (ages_step now s.1 e).aged tidy.flows (length ▸ lt_of_taking takes) takes
  · rw [silent, same]
    exact List.append_nil _

theorem tidy_step (tidy : Tidy s) (alone : s.1.asksAlone e = true) :
    Tidy ((step now s.1 e).1, s.2 ++ (step now s.1 e).2) := by
  have fresh := beginsNew_of_asksAlone alone
  obtain ⟨asks, _⟩ := Bool.and_eq_true_iff.mp alone
  obtain ⟨consults, room⟩ := Bool.and_eq_true_iff.mp asks
  have consulted := consulted_step tidy.consulted now consults fresh
  have flows : Flows (step now s.1 e).1 := flows_step now (by simpa using room) tidy.flows
  cases about : e.call? with
  | none => exact tidy.hears consulted flows about
  | some call =>
    have advance := tidy.consulted.advance now consults fresh about
    have goesOn : s.1.tasks = (s.1.task? call).toList →
        Tidy ((step now s.1 e).1, s.2 ++ (step now s.1 e).2) := by
      intro tasks
      refine Tidy.goesOn (c := s.1) tidy consulted flows ?_
        (Aged.length_le (ages_step now s.1 e).aged) (fun process => advance.unknown tidy.flows)
        fun process => advance.balanced tidy.flows fresh tasks
      rcases advance.shifted tidy.flows with same | ⟨own, shifted⟩
      · rw [same]
        exact tidy.alone
      · rw [shifted.alone tasks]
        cases own <;> simp
    cases there : s.1.task? call with
    | some t => exact goesOn (tasks_of_asksAlone tidy.alone there)
    | none =>
      cases begins : e.begun? with
      | none =>
        rw [step_unknown now about begins there, List.append_nil]
        exact tidy
      | some other =>
        have empty : s.1.tasks = [] := by
          simpa [asksAlone, begins] using (Bool.and_eq_true_iff.mp alone).2
        refine goesOn ?_
        rw [there, empty]
        rfl

theorem tidy_run {c : Client} {effects : List Effect} {events : List (Int × Event)}
    (tidy : Tidy (c, effects)) (alone : EachStep (fun c _ e => c.asksAlone e = true) c events) :
    Tidy ((run c events).1, effects ++ (run c events).2) := by
  induction events generalizing c effects with
  | nil =>
    unfold run
    rw [List.append_nil]
    exact tidy
  | cons event more ih =>
    obtain ⟨now, e⟩ := event
    unfold run
    rw [← List.append_assoc]
    exact ih (tidy_step (s := (c, effects)) tidy alone.1) alone.2

end

/-- Of calls that are made one after the other, whatever becomes of each and whatever the servers
    do: a server that stays alive, and takes what is written to it, is told of documents in pairs,
    the last of which is open just as long as the call is under way that asks that server about
    it. -/
theorem documents_paired (setup : ServerSetup) (events : List (Int × Event))
    (alone : EachStep (fun c _ e => c.asksAlone e = true) (ofSetup setup) events) :
    let s := run (ofSetup setup) events
    ∀ process, s.1.input process = .taking →
      (∃ closed, Notice.arePaired closed = true ∧
        documents process s.2 = closed ++ s.1.stillOpen process) ∧
      (s.1.stillOpen process).length ≤ 1 ∧
      (s.1.tasks = [] → Notice.arePaired (documents process s.2) = true) := by
  intro s process takes
  have nothing : Tidy (ofSetup setup, []) := by
    refine ⟨consulted_ofSetup setup, flows_ofSetup setup, Nat.zero_le _, fun _ _ => rfl,
      fun process takes => ?_⟩
    simp [ofSetup, Client.input] at takes
  have tidy : Tidy s := tidy_run nothing alone
  obtain ⟨closed, paired, told⟩ := tidy.paired process takes
  refine ⟨⟨closed, paired, told⟩, ?_, fun ended => ?_⟩
  · unfold stillOpen
    split
    · rw [List.length_map]
      exact Nat.le_trans (List.length_filterMap_le _ _) tidy.alone
    · exact Nat.zero_le _
  · have none : s.1.tasks = (none : Option CallTask).toList := ended
    have idle : s.1.stillOpen process = [] := stillOpen_of_quiet none (by simp) process
    rw [told, idle, List.append_nil]
    exact paired

/-- The first call gets its answer, and the second one is cancelled while it waits for its own. -/
theorem documents_paired_cancelled :
    let answer (id : Nat) : Bytes := Frame.encode (.object [("id", .int id), ("result", .null)])
    let events : List (Int × Event) :=
      [(0, .begin 0 (.hoverDocument ⟨['u'], ⟨0, 0⟩⟩)), (0, .spawned 0 none),
        (1, .output 0 (answer 1)), (1, .resume 0), (1, .document 0 (.ok ['x'])),
        (2, .output 0 (answer 2)), (2, .resume 0),
        (3, .begin 1 (.hoverDocument ⟨['v'], ⟨0, 0⟩⟩)), (3, .document 1 (.ok ['y'])),
        (4, .cancelled 1)]
    let s := run (ofSetup ⟨[['s']], ⟨['/'], []⟩, 1, 10000000, 100⟩) events
    s.1.input 0 = .taking ∧ (documents 0 s.2).length = 4 ∧
      Notice.arePaired (documents 0 s.2) = true := by
  intro answer events s
  have alone : EachStep (fun c _ e => c.asksAlone e = true)
      (ofSetup ⟨[['s']], ⟨['/'], []⟩, 1, 10000000, 100⟩) events := by decide +kernel
  have takes : s.1.input 0 = .taking := by decide +kernel
  have ended : s.1.tasks = [] := List.isEmpty_iff.mp (by decide +kernel)
  obtain ⟨_, _, paired⟩ :=
    documents_paired ⟨[['s']], ⟨['/'], []⟩, 1, 10000000, 100⟩ events alone 0 takes
  exact ⟨takes, by decide +kernel, paired ended⟩

end Client

end TemplateTypes
