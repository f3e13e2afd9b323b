import TemplateTypes.Proofs.Server.Machine

namespace TemplateTypes

def Effect.returned? : Effect → Option Nat
  | .finish call (.value _) => some call
  | _ => none

theorem Effect.mem_returned_iff {effects : List Effect} {call : Nat} :
    call ∈ effects.filterMap returned? ↔ ∃ result, .finish call (.value result) ∈ effects := by
  constructor
  · intro listed
    obtain ⟨e, member, returned⟩ := List.mem_filterMap.mp listed
    unfold returned? at returned
    split at returned
    · rename_i result
      obtain rfl := Option.some.inj returned
      exact ⟨result, member⟩
    · cases returned
  · rintro ⟨result, member⟩
    exact List.mem_filterMap.mpr ⟨_, member, rfl⟩

namespace Client

def aliveness (c : Client) : List Bool := c.processes.map (·.alive)

/-- The same processes live, and one of them is current as before. -/
structure Still (before after : World) : Prop where
  alive : after.1.aliveness = before.1.aliveness
  current : after.1.current = before.1.current

structure Quiet (before after : World) : Prop extends Still before after where
  returned : after.2.filterMap Effect.returned? = before.2.filterMap Effect.returned?

instance : Std.Refl Still := ⟨fun _ => ⟨rfl, rfl⟩⟩

instance : IsTrans World Still where
  trans _ _ _ first second :=
    ⟨second.alive.trans first.alive, second.current.trans first.current⟩

instance : Std.Refl Quiet := ⟨fun _ => ⟨⟨rfl, rfl⟩, rfl⟩⟩

instance : IsTrans World Quiet where
  trans _ _ _ first second :=
    ⟨trans_of Still first.toStill second.toStill, second.returned.trans first.returned⟩

theorem Ensures.still {α : Type} {a : Act α} (quiet : Ensures Quiet a) : Ensures Still a :=
  quiet.mono fun _ _ between => between.toStill

theorem aliveness_setProcess {c : Client} {process : Nat} {p q : ServerProcess}
    (there : c.processes[process]? = some p) (same : q.alive = p.alive) :
    (c.setProcess process q).aliveness = c.aliveness := by
  obtain ⟨bound, rfl⟩ := List.getElem?_eq_some_iff.mp there
  have known : process < c.aliveness.length := by rwa [aliveness, List.length_map]
  have kept := List.set_getElem_self known
  simpa [aliveness, setProcess, List.map_set, same] using kept

theorem getElem?_setProcess {c : Client} {process : Nat} {p q : ServerProcess}
    (there : c.processes[process]? = some p) :
    (c.setProcess process q).processes[process]? = some q := by
  obtain ⟨bound, _⟩ := List.getElem?_eq_some_iff.mp there
  exact List.getElem?_set_self bound

def adjust (process : Nat) (f : ServerProcess → ServerProcess) (c : Client) : Client :=
  match c.processes[process]? with
  | some p => c.setProcess process (f p)
  | none => c

theorem aliveness_adjust {process : Nat} {f : ServerProcess → ServerProcess} (c : Client)
    (same : ∀ p, (f p).alive = p.alive) : (adjust process f c).aliveness = c.aliveness := by
  unfold adjust
  split
  · rename_i p there
    exact aliveness_setProcess there (same p)
  · rfl

theorem current_adjust (process : Nat) (f : ServerProcess → ServerProcess) (c : Client) :
    (adjust process f c).current = c.current := by
  unfold adjust
  split <;> rfl

theorem ensures_adjust {process : Nat} {f : ServerProcess → ServerProcess}
    (same : ∀ p, (f p).alive = p.alive) : Ensures Quiet (update (adjust process f)) :=
  ensures_update fun c _ => ⟨⟨aliveness_adjust c same, current_adjust process f c⟩, rfl⟩

theorem ensures_queue (f : List Writing → List Writing) :
    Ensures Quiet (update fun c => { c with writes := f c.writes }) :=
  ensures_update fun _ _ => ⟨⟨rfl, rfl⟩, rfl⟩

theorem ensures_unwrite (writer : Writer) : Ensures Quiet (update (unwrite writer)) :=
  ensures_queue fun writes => writes.filter (·.writer != writer)

theorem ensures_write (process : Nat) (payload : Json) :
    Ensures Quiet (emit (.write process payload)) :=
  ensures_emit fun _ _ => ⟨⟨rfl, rfl⟩, by simp [Effect.returned?]⟩

theorem ensures_send (writer : Writer) (payload : Json) (limit : Option Int) :
    Ensures Quiet (send writer payload limit) :=
  ensures_send_of ensures_queue fun process => ensures_write process payload

theorem ensures_resumeWrite (writer : Writer) : Ensures Quiet (resumeWrite writer) :=
  ensures_resumeWrite_of ensures_queue ensures_write

theorem ensures_wait (call : Nat) (stage : Stage) (deadline : Option Int) :
    Ensures Quiet (wait call stage deadline) :=
  ensures_update fun _ _ => ⟨⟨rfl, rfl⟩, rfl⟩

theorem ensures_setDeadline (call : Nat) (deadline : Option Int) :
    Ensures Quiet (update (setDeadline call deadline)) :=
  ensures_update fun _ _ => ⟨⟨rfl, rfl⟩, rfl⟩

theorem ensures_forget (request : Nat) : Ensures Quiet (forget request) :=
  ensures_update fun _ _ => ⟨⟨rfl, rfl⟩, rfl⟩

theorem ensures_passTurn (call : Nat) : Ensures Quiet (passTurn call) :=
  ensures_update fun _ _ => ⟨⟨rfl, rfl⟩, rfl⟩

theorem ensures_leave (call : Nat) (outcome : Outcome) : Ensures Still (leave call outcome) :=
  (ensures_update fun _ _ => ⟨rfl, rfl⟩).bind fun _ => ensures_emit fun _ _ => ⟨rfl, rfl⟩

theorem ensures_leave_quiet {call : Nat} {outcome : Outcome}
    (unreturned : (Effect.finish call outcome).returned? = none) :
    Ensures Quiet (leave call outcome) :=
  (ensures_update fun _ _ => ⟨⟨rfl, rfl⟩, rfl⟩).bind fun _ =>
    ensures_emit fun _ _ => ⟨⟨rfl, rfl⟩, by simp [unreturned]⟩

section

variable {R : World → World → Prop} {call : Nat} {limit : Option Int} {payload : Json}

theorem ensures_sendThen {stage : Stage} {next : Option WriteError → Act Unit}
    (quiet : ∀ {s t}, Quiet s t → R s t) (compose : ∀ {s t u}, Quiet s t → R t u → R s u)
    (goes : ∀ failure, Ensures R (next failure)) :
    Ensures R (sendThen call stage limit payload next) :=
  ensures_sendThen_of (ensures_send _ _ _) ((ensures_wait _ _ _).mono fun _ _ => quiet) goes compose

theorem ensures_ask {now limit : Int} {stage : Nat → Stage} {method : Text} {params : Json}
    {refused : WriteError → Act Unit} (quiet : ∀ {s t}, Quiet s t → R s t)
    (compose : ∀ {s t u}, Quiet s t → R t u → R s u) (goes : ∀ e, Ensures R (refused e)) :
    Ensures R (ask now call stage limit method params refused) := by
  refine ensures_look fun c => Ensures.followed (R := Quiet) (S := R)
    (ensures_update fun _ _ => ⟨⟨rfl, rfl⟩, rfl⟩)
    (fun _ => ensures_sendThen quiet compose fun failure => ?_) compose
  cases failure with
  | none => exact (ensures_wait _ _ _).mono fun _ _ => quiet
  | some e => exact (ensures_forget _).followed (fun _ => goes e) compose

end

theorem Quiet.trans_still {s t u : World} (first : Quiet s t) (second : Still t u) : Still s u :=
  trans_of Still first.toStill second

theorem ensures_settle (request : Nat) (outcome : Except Fault Json) :
    Ensures Quiet (update (settle request outcome)) :=
  ensures_update fun _ _ => ⟨⟨rfl, rfl⟩, rfl⟩

theorem ensures_endReader (process : Nat) (state : ReaderState) :
    Ensures Quiet (endReader process state) := by
  let ended (p : ServerProcess) : ServerProcess := { p with reader := state }
  exact ensures_update fun c _ =>
    ⟨⟨aliveness_adjust (f := ended) c fun _ => rfl, current_adjust process ended c⟩, rfl⟩

theorem ensures_handle (process : Nat) (payload : Json) :
    Ensures Quiet (handle process payload) := by
  unfold handle
  split
  · exact ensures_pure _
  · exact ensures_pure _
  · refine (ensures_send _ _ _).bind fun sent => ?_
    cases sent <;> exact ensures_pure _
  · split
    · refine ensures_look fun c => ?_
      split
      · split
        · exact ensures_pure _
        · exact (ensures_settle _ _).bind fun _ => ensures_pure _
      · exact ensures_pure _
    · exact ensures_pure _

theorem ensures_readMessages (process fuel : Nat) : Ensures Quiet (readMessages process fuel) :=
  ensures_readMessages_of (fun state _ => ensures_endReader process state)
    (fun _ _ _ there _ => ⟨⟨aliveness_setProcess there rfl, rfl⟩, rfl⟩) (ensures_handle process) fuel

theorem ensures_readOutput (process : Nat) : Ensures Quiet (readOutput process) := by
  refine ensures_look fun c => ?_
  split
  · exact ensures_readMessages _ _
  · exact ensures_pure _

theorem ensures_startFailed (call : Nat) (fault : Fault) :
    Ensures Quiet (startFailed call fault) :=
  (ensures_passTurn call).bind fun _ => ensures_leave_quiet rfl

theorem ensures_started (call : Nat) (after : AfterStart) :
    Ensures Still (started call after) := by
  refine (ensures_passTurn call).still.bind fun _ => ?_
  cases after with
  | finish => exact ensures_leave call _
  | hover q => exact (ensures_wait _ _ _).still.bind fun _ => ensures_emit fun _ _ => ⟨rfl, rfl⟩

theorem ensures_takeTurn (call : Nat) (after : AfterStart) :
    Ensures Still (takeTurn call after) := by
  refine ensures_look fun c => ?_
  split
  · exact ensures_started call after
  · split
    · exact (ensures_startFailed call _).still
    · exact (ensures_wait _ _ _).still.bind fun _ => ensures_emit fun _ _ => ⟨rfl, rfl⟩

theorem ensures_enqueue (call : Nat) (after : AfterStart) :
    Ensures Still (enqueue call after) := by
  refine (ensures_update fun _ _ => ⟨rfl, rfl⟩).bind fun _ =>
    ensures_look fun c => ?_
  split
  · exact ensures_takeTurn call after
  · exact (ensures_wait _ _ _).still

theorem ensures_greetingSent (call : Nat) (after : AfterStart) (failure : Option WriteError) :
    Ensures Still (greetingSent call after failure) := by
  cases failure with
  | some e => exact (ensures_startFailed call e.fault).still
  | none => exact (ensures_update fun _ _ => ⟨rfl, rfl⟩).bind fun _ => ensures_started call after

theorem ensures_greeted (call : Nat) (after : AfterStart) (outcome : Except Fault Json) :
    Ensures Still (greeted call after outcome) := by
  cases outcome with
  | error fault => exact (ensures_startFailed call fault).still
  | ok result =>
    exact ensures_sendThen Quiet.toStill Quiet.trans_still (ensures_greetingSent call after)

theorem ensures_lastSent (call : Nat) (outcome : Outcome) (failure : Option WriteError) :
    Ensures Still (lastSent call outcome failure) := by
  cases failure <;> exact ensures_leave call _

theorem ensures_finishWriting (call : Nat) (payload : Json) (outcome : Outcome) :
    Ensures Still (finishWriting call payload outcome) :=
  ensures_sendThen Quiet.toStill Quiet.trans_still (ensures_lastSent call outcome)

theorem ensures_finishAnswer (call : Nat) (use : AnswerUse) (outcome : Except Fault Json) :
    Ensures Still (finishAnswer call use outcome) := by
  cases use with
  | whole => exact ensures_leave call _
  | candidates => exact ensures_leave call _
  | candidatesOf uri => exact ensures_finishWriting call _ _

theorem ensures_request (now : Int) (call : Nat) (method : Text) (params : Json)
    (timeout : Option Int) (use : AnswerUse) :
    Ensures Still (request now call method params timeout use) :=
  ensures_look fun _ => ensures_ask Quiet.toStill Quiet.trans_still fun e =>
    ensures_finishAnswer call use (.error e.fault)

theorem ensures_documentSent (now : Int) (call : Nat) (q : Question)
    (failure : Option WriteError) : Ensures Still (documentSent now call q failure) := by
  cases failure with
  | some e => exact ensures_leave call _
  | none => exact ensures_request now call _ _ _ _

theorem ensures_hoverContent (now : Int) (call : Nat) (q : Question) (content : Text) :
    Ensures Still (hoverContent now call q content) :=
  ensures_sendThen Quiet.toStill Quiet.trans_still (ensures_documentSent now call q)

end Client

end TemplateTypes
