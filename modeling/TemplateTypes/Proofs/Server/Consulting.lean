import TemplateTypes.Proofs.Server.Advancing

namespace TemplateTypes

open Text

namespace Client

/-- The first call in the queue has the turn, and those in the queue are the ones that start. -/
structure Queued (c : Client) : Prop where
  waits : ∀ t ∈ c.tasks, t.stage.isStarting = true → t.call ∈ c.startQueue
  turns : ∀ t ∈ c.tasks, t.stage.hasTurn = true → c.startQueue.head? = some t.call
  known : ∀ call ∈ c.startQueue, ∃ t ∈ c.tasks, t.call = call ∧ t.stage.isStarting = true

section

variable {now : Int} {c d : Client} {call : Nat} {e : Event}

theorem mem_enters (about : e.call? = some call) {other : Nat} :
    other ∈ (c.enters e).startQueue → other ∈ c.startQueue ∨ other = call := by
  intro member
  rcases List.mem_append.mp member with old | new
  · exact .inl old
  · have begins : e.begun? = some other := Option.mem_toList.mp new
    exact .inr (Option.some.inj ((Event.call?_of_begun? begins).symm.trans about))

theorem head?_filter_of_ne {queue : List Nat} {first : Nat} (head : queue.head? = some first)
    (apart : first ≠ call) : (queue.filter (· != call)).head? = some first := by
  cases queue with
  | nil => cases head
  | cons next more =>
    obtain rfl := Option.some.inj head
    rw [List.filter_cons_of_pos (by simpa using apart)]
    rfl

theorem head?_enters {first : Nat} (head : c.startQueue.head? = some first) :
    (c.enters e).startQueue.head? = some first := by
  unfold enters
  rw [List.head?_append, head]
  rfl

theorem Queued.enters (queued : Queued c) (about : e.call? = some call) {t : CallTask}
    (own : t.call = call) (remains : Remains call (some t) c d)
    (queue : d.startQueue = (c.enters e).startQueue) (starting : t.stage.isStarting = true)
    (there : call ∈ (c.enters e).startQueue)
    (turn : t.stage.hasTurn = true → (c.enters e).startQueue.head? = some call) : Queued d := by
  obtain ⟨waits, turns, known⟩ := queued
  have cases : ∀ u ∈ d.tasks, u ∈ c.tasks ∨ u = t := by
    intro u member
    rcases (remains u).mp member with new | ⟨old, _⟩
    · exact .inr (Option.some.inj new).symm
    · exact .inl old
  constructor
  · intro u member waiting
    rw [queue]
    rcases cases u member with old | rfl
    · exact List.mem_append_left _ (waits u old waiting)
    · rwa [own]
  · intro u member hasTurn
    rw [queue]
    rcases cases u member with old | rfl
    · exact head?_enters (turns u old hasTurn)
    · rw [own]
      exact turn hasTurn
  · intro other member
    rw [queue] at member
    by_cases mine : other = call
    · exact ⟨t, (remains t).mpr (.inl rfl), own.trans mine.symm, starting⟩
    · obtain ⟨u, old, same, waiting⟩ := known other ((mem_enters about member).resolve_right mine)
      refine ⟨u, (remains u).mpr (.inr ⟨old, ?_⟩), same, waiting⟩
      rwa [same]

theorem Queued.passes (queued : Queued c) (about : e.call? = some call) {own : Option CallTask}
    (remains : Remains call own c d) (queue : d.startQueue = c.passed e call)
    (started : ∀ t ∈ own, t.stage.isStarting = false) : Queued d := by
  obtain ⟨waits, turns, known⟩ := queued
  have cases : ∀ u ∈ d.tasks, u.stage.isStarting = true → u ∈ c.tasks ∧ u.call ≠ call := by
    intro u member waiting
    rcases (remains u).mp member with new | old
    · rw [started u new] at waiting
      cases waiting
    · exact old
  constructor
  · intro u member waiting
    obtain ⟨old, apart⟩ := cases u member waiting
    rw [queue]
    exact List.mem_filter.mpr
      ⟨List.mem_append_left _ (waits u old waiting), by simpa using apart⟩
  · intro u member hasTurn
    obtain ⟨old, apart⟩ := cases u member (Stage.isStarting_of_hasTurn hasTurn)
    rw [queue]
    exact head?_filter_of_ne (head?_enters (turns u old hasTurn)) apart
  · intro other member
    rw [queue] at member
    obtain ⟨entered, apart⟩ := List.mem_filter.mp member
    have apart : other ≠ call := by simpa using apart
    obtain ⟨u, old, same, waiting⟩ := known other ((mem_enters about entered).resolve_right apart)
    refine ⟨u, (remains u).mpr (.inr ⟨old, ?_⟩), same, waiting⟩
    rwa [same]

theorem eq_of_task? (booked : Booked c) {t u : CallTask} (there : c.task? call = some t)
    (member : u ∈ c.tasks) (same : u.call = call) : u = t :=
  booked.unique member (mem_of_task? there) (same.trans (task?_call there).symm)

theorem task?_of_mem (booked : Booked c) {t : CallTask} (member : t ∈ c.tasks) :
    c.task? t.call = some t := by
  cases there : c.task? t.call with
  | none => exact absurd rfl (task?_eq_none_iff.mp there t member)
  | some u => rw [eq_of_task? booked there member rfl]

/-- A call that starts the server keeps its place in the queue. -/
theorem Queued.goesOn (queued : Queued c) (about : e.call? = some call) {t u : CallTask}
    (later : e.begun? = none) (there : c.task? call = some t) (turn : t.stage.hasTurn = true)
    (own : u.call = call) (starting : u.stage.isStarting = true)
    (remains : Remains call (some u) c d) (queue : d.startQueue = c.startQueue) : Queued d := by
  have first := queued.turns t (mem_of_task? there) turn
  rw [task?_call there] at first
  have same := enters_of_later (c := c) later
  refine queued.enters about own remains (queue.trans (congrArg startQueue same.symm)) starting ?_ ?_
  · rw [same]
    exact List.mem_of_head? first
  · rw [same]
    exact fun _ => first

theorem Queued.later (queued : Queued c) (booked : Booked c) {t : CallTask}
    (there : c.task? call = some t) (hovering : t.stage.isHovering = true)
    (later : e.begun? = none) : c.passed e call = c.startQueue := by
  rw [passed_of_later c call later, List.filter_eq_self]
  intro other member
  obtain ⟨u, old, same, waiting⟩ := queued.known other member
  rw [bne_iff_ne]
  rintro rfl
  obtain rfl := eq_of_task? booked there old same
  rw [Stage.isStarting_of_isHovering hovering] at waiting
  cases waiting

end

/-- The calls under way start the server or consult it, one start after the other. -/
structure Consulted (c : Client) : Prop where
  booked : Booked c
  consulting : ∀ t ∈ c.tasks, t.stage.isConsulting = true
  queued : Queued c
  told : ∀ t ∈ c.tasks, Tells c t

section

variable {now : Int} {c d : Client} {call : Nat} {e : Event} {after : World}

theorem isStarting_task? (a : AfterStart) : ∀ t ∈ a.task? call, t.stage.isStarting = false := by
  cases a with
  | finish => simp [AfterStart.task?]
  | hover q => simp [AfterStart.task?, Stage.isStarting]

theorem Tells.congr {t : CallTask} (told : Tells c t)
    (same : d.callWrite? t.call = c.callWrite? t.call) : Tells d t := by
  unfold Tells
  rw [same]
  exact told

/-- What becomes of the call, and what it may be writing then. -/
theorem Advance.remains (advance : Advance now c call e after)
    (told : ∀ t ∈ c.tasks, Tells c t) :
    after = (c, []) ∨ ∃ own, Remains call own c after.1 ∧
      ∀ t ∈ own, t.call = call ∧ t.stage.isConsulting = true ∧ Tells after.1 t := by
  have started : ∀ a : AfterStart, ∀ t ∈ a.task? call, t.call = call ∧
      t.stage.isConsulting = true ∧ Tells after.1 t := by
    intro a
    cases a with
    | finish => exact forall_mem_no_task
    | hover q =>
      rintro t ⟨⟩
      exact ⟨rfl, rfl, True.intro⟩
  have goes : ∀ {stage deadline}, Stage.isConsulting stage = true →
      stage.Tells ((after.1.callWrite? call).map (·.2.1)) →
      ∀ t ∈ some (CallTask.mk call stage deadline), t.call = call ∧
        t.stage.isConsulting = true ∧ Tells after.1 t := by
    rintro stage deadline consulting tells t ⟨⟩
    exact ⟨rfl, consulting, tells⟩
  cases advance with
  | idle unmoved same => exact .inl same
  | queues a begins turn calm queue pending effects =>
    exact .inr ⟨_, calm.toShifted.remains, goes rfl True.intro⟩
  | spawns a turns turn unready calm queue effects =>
    exact .inr ⟨_, calm.toShifted.remains, goes rfl True.intro⟩
  | starts a turns turn ready calm queue effects =>
    exact .inr ⟨_, calm.toShifted.remains, started a⟩
  | greets a accepted deadline there shifted queue idle =>
    exact .inr ⟨_, shifted.remains, goes rfl (by simp [Stage.Tells, idle])⟩
  | greeted a request deadline there idle result answered process own takes shifted =>
    exact .inr ⟨_, shifted.remains, started a⟩
  | startFails outcome starting failure calm queue effects =>
    exact .inr ⟨_, calm.toShifted.remains, forall_mem_no_task⟩
  | opens q content deadline there process own takes later calm queue effects =>
    exact .inr ⟨_, calm.toShifted.remains, goes rfl True.intro⟩
  | closes request method uri deadline there process own takes outcome calm queue effects =>
    exact .inr ⟨_, calm.toShifted.remains, forall_mem_no_task⟩
  | hoverFails t there hovering stopped outcome calm queue effects =>
    exact .inr ⟨_, calm.toShifted.remains, forall_mem_no_task⟩
  | drags slow drags =>
    right
    cases drags with
    | greets a accepted deadline there shifted queue processes current initialized params limit
        later =>
      exact ⟨_, shifted.remains, goes rfl (by simp [Stage.Tells, later])⟩
    | tells a request deadline there idle result answered calm queue limit queued later =>
      exact ⟨_, calm.toShifted.remains, goes rfl (by simp [Stage.Tells, later])⟩
    | writes t there turn deadline stays queue payload limit queued before later hands =>
      have tells := told t (mem_of_task? there)
      obtain ⟨number, stage, _⟩ := t
      obtain rfl : number = call := task?_call there
      refine ⟨_, stays.remains, goes (Bool.or_eq_true_iff.mpr
        (.inl (Stage.isStarting_of_hasTurn turn))) ?_⟩
      unfold Tells at tells
      rw [before] at tells
      rcases later with ⟨idle, request, a, rfl⟩ | ⟨_, same⟩
      · rw [idle]
        simp [Stage.Tells]
      · rw [same]
        exact tells
    | greeted a deadline there shifted => exact ⟨_, shifted.remains, started a⟩
    | dwells t there hovering own dwells =>
      refine ⟨_, dwells.stays.remains, fun u mine => ?_⟩
      obtain ⟨same, hovers, tells⟩ := dwells.hovering u mine
      exact ⟨same, Stage.isConsulting_of_isHovering hovers, tells⟩

theorem Advance.queued (advance : Advance now c call e after) (about : e.call? = some call)
    (fresh : BeginsNew c e) (booked : Booked c) (queued : Queued c) : Queued after.1 := by
  have later := fun {t} => fresh.later (t := t) about
  cases advance with
  | idle unmoved same =>
    subst same
    exact queued
  | queues a begins turn calm queue pending effects =>
    refine queued.enters about rfl calm.toShifted.remains queue rfl ?_ fun hasTurn => by
      cases hasTurn
    rw [begins]
    exact List.mem_append_right _ (List.mem_singleton_self call)
  | spawns a turns turn unready calm queue effects =>
    exact queued.enters about rfl calm.toShifted.remains queue rfl (List.mem_of_head? turn)
      fun _ => turn
  | starts a turns turn ready calm queue effects =>
    exact queued.passes about calm.toShifted.remains queue (isStarting_task? a)
  | greets a accepted deadline there shifted queue =>
    exact queued.goesOn about (later there) there rfl rfl rfl shifted.remains queue
  | greeted a request deadline there idle result answered process own takes shifted queue =>
    exact queued.passes about shifted.remains queue (isStarting_task? a)
  | startFails outcome starting failure calm queue effects =>
    exact queued.passes about calm.toShifted.remains queue forall_mem_no_task
  | opens q content deadline there process own takes waits calm queue effects =>
    have same := queued.later booked there rfl (later there)
    refine queued.passes about calm.toShifted.remains (queue.trans same.symm) ?_
    rintro t ⟨⟩
    rfl
  | closes request method uri deadline there process own takes outcome calm queue effects =>
    have same := queued.later booked there rfl (later there)
    exact queued.passes about calm.toShifted.remains (queue.trans same.symm)
      forall_mem_no_task
  | hoverFails t there hovering stopped outcome calm queue effects =>
    have same := queued.later booked there hovering (later there)
    exact queued.passes about calm.toShifted.remains (queue.trans same.symm)
      forall_mem_no_task
  | drags slow drags =>
    cases drags with
    | greets a accepted deadline there shifted queue =>
      exact queued.goesOn about (later there) there rfl rfl rfl shifted.remains queue
    | tells a request deadline there idle result answered calm queue =>
      exact queued.goesOn about (later there) there rfl rfl rfl calm.toShifted.remains queue
    | writes t there turn deadline stays queue =>
      have own : t.call = call := task?_call there
      exact queued.goesOn (u := { t with deadline }) about (later there) there turn own
        (Stage.isStarting_of_hasTurn turn) stays.remains queue
    | greeted a deadline there shifted queue =>
      exact queued.passes about shifted.remains queue (isStarting_task? a)
    | dwells t there hovering own dwells =>
      have same := queued.later booked there hovering (later there)
      exact queued.passes about dwells.stays.remains (dwells.queue.trans same.symm)
        fun u mine => Stage.isStarting_of_isHovering (dwells.hovering u mine).2.1

theorem Consulted.advance (consulted : Consulted c) (now : Int) (consults : e.isConsulting = true)
    (fresh : BeginsNew c e) (about : e.call? = some call) : Advance now c call e (step now c e) :=
  advance_step now consulted.booked consulted.consulting consulted.told consults fresh about

theorem consulted_step (consulted : Consulted c) (now : Int) (consults : e.isConsulting = true)
    (fresh : BeginsNew c e) : Consulted (step now c e).1 := by
  have booked := booked_step now consulted.booked fresh
  cases about : e.call? with
  | none =>
    have heard := heard_step now consulted.booked.lined about
    have queue := (noticed_step now consulted.booked.lined about).held.queue
    obtain ⟨waits, turns, known⟩ := consulted.queued
    refine ⟨booked, ?_, ⟨?_, ?_, ?_⟩, fun t member => ?_⟩
    · rw [heard.tasks]
      exact consulted.consulting
    · rwa [heard.tasks, queue]
    · rwa [heard.tasks, queue]
    · rwa [heard.tasks, queue]
    · rw [heard.tasks] at member
      exact (consulted.told t member).congr (callWrite?_congr heard.calls _)
  | some call =>
    have advance := consulted.advance now consults fresh about
    have queued := advance.queued about fresh consulted.booked consulted.queued
    have acts := (step_settles now about (fresh call) consulted.booked).2
    rcases advance.remains consulted.told with same | ⟨own, remains, mine⟩
    · rw [same]
      exact consulted
    · refine ⟨booked, fun t member => ?_, queued, fun t member => ?_⟩
      · rcases (remains t).mp member with new | ⟨old, _⟩
        · exact (mine t new).2.1
        · exact consulted.consulting t old
      · rcases (remains t).mp member with new | ⟨old, apart⟩
        · exact (mine t new).2.2
        · exact (consulted.told t old).congr (acts.callWrite? apart)

theorem consulted_ofSetup (setup : ServerSetup) : Consulted (ofSetup setup) := by
  refine ⟨booked_ofSetup setup, ?_, ⟨?_, ?_, ?_⟩, ?_⟩ <;> simp [ofSetup]

end

end Client

end TemplateTypes
