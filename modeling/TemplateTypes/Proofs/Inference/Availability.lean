import TemplateTypes.Proofs.Files.Confine
import TemplateTypes.Proofs.Hover.Deadline
import TemplateTypes.Proofs.Inference.Transcript
import TemplateTypes.Inference.Request

namespace TemplateTypes

open Text

def Oracle.NeverStops {σ : Type} (oracle : Oracle σ) : Prop :=
  ∀ s files q deadline, (oracle.ask s files q deadline).1 ≠ .interrupted

theorem Oracle.neverStops_replying (r : Reply) : (Oracle.replying r).NeverStops := by
  intro s files q deadline
  rw [ask]
  rcases r.call.await_cases 0 deadline with late | ⟨d, ended, came, answered⟩
  · exact late ▸ Answer.noConfusion
  · unfold Reply.call at came
    split at came
    · cases came
    · obtain ⟨_, same⟩ := Option.ite_none_right_eq_some.mp came
      obtain rfl := Option.some.inj same
      exact answered ▸ Answer.noConfusion

namespace Prober

variable {σ : Type} {p : Prober σ}

theorem askBinding_ne_interrupted (calm : p.oracle.NeverStops) (files : FileTree)
    (artifact : Artifact) (b : Binding) (start : Nat) (s : σ) :
    (askBinding p files artifact b start s).1 ≠ .error .interrupted := by
  intro stopped
  rw [askBinding_hears] at stopped
  obtain ⟨asked, found, answer⟩ := Option.map_eq_some_iff.mp (hear_interrupted stopped)
  unfold ask? at found
  dsimp only at found
  split at found
  · cases found
  · cases found
    exact calm _ _ _ _ answer

theorem askAll_ok (calm : p.oracle.NeverStops) (files : FileTree) (artifact : Artifact)
    (searches : List (Binding × Nat)) (s : σ) :
    ∃ report, (askAll p files artifact searches s).1 = .ok report := by
  induction searches generalizing s with
  | nil => exact ⟨_, rfl⟩
  | cons search more ih =>
    obtain ⟨b, start⟩ := search
    have goesOn := askBinding_ne_interrupted calm files artifact b start s
    unfold askAll
    cases first : askBinding p files artifact b start s with
    | mk result next =>
      rw [first] at goesOn
      cases result with
      | ok entry =>
        dsimp only
        split
        · exact ⟨_, rfl⟩
        · exact ih next
      | error stop =>
        cases stop with
        | interrupted => exact absurd rfl goesOn
        | failed fault =>
          dsimp only
          split
          · exact ⟨_, rfl⟩
          · exact ih next

theorem probe_ok (calm : p.oracle.NeverStops) (s : ProbingState σ) (map : BindingMap)
    (bindings : List Binding) (host : Option ComponentHost) :
    ∃ report, (p.probe s map bindings host).1 = .ok report := by
  unfold probe
  split
  · exact ⟨_, rfl⟩
  · exact askAll_ok calm _ _ _ _

theorem infer_ne_interrupted (calm : p.oracle.NeverStops) (s : ProbingState σ)
    (context : InferenceContext) : (p.infer s context).1 ≠ .error .interrupted := by
  intro stopped
  by_cases empty : context.bindings.isEmpty
  · rw [infer, if_pos empty] at stopped
    cases stopped
  by_cases blank : allBlank context.owner
  · rw [infer, if_neg empty, if_pos blank] at stopped
    cases stopped
  cases read : context.toBindings with
  | error e =>
    rw [infer, if_neg empty, if_neg blank, read] at stopped
    cases stopped
  | ok bindings =>
    obtain ⟨report, answered⟩ := probe_ok calm (p.hosted s context.owner).2 context.bindings
      bindings (p.hosted s context.owner).1
    rw [infer_probes p s empty blank read, answered] at stopped
    cases stopped

end Prober

theorem inferTypes_ne_interrupted {σ : Type} {prober : Option (Prober σ)}
    (calm : ∀ p ∈ prober, p.oracle.NeverStops) (s : ProbingState σ) (context : InferenceContext) :
    (inferTypes prober s context).1 ≠ .error .interrupted := by
  intro stopped
  unfold inferTypes at stopped
  split at stopped
  · cases stopped
  · split at stopped
    · cases stopped
    · rename_i p
      split at stopped
      · rename_i inferred
        apply Prober.infer_ne_interrupted (calm p rfl) s context
        rw [inferred]
        exact stopped
      · cases stopped

namespace InferenceRequest

variable {σ : Type} {r : InferenceRequest} {settings : Settings} {oracle : Option (Oracle σ)}

theorem inferIn_ok (calm : ∀ o ∈ oracle, o.NeverStops) (s : ProbingState σ)
    (environmentRoot path : Text) (bindings kinds : BindingMap) :
    ∃ response, (r.inferIn settings oracle s environmentRoot path bindings kinds).1 =
      .ok response := by
  have calmProber : ∀ p ∈ r.prober? settings oracle s environmentRoot path,
      p.oracle.NeverStops := by
    intro p used
    unfold prober? at used
    split at used
    · obtain ⟨o, given, rfl⟩ := Option.map_eq_some_iff.mp used
      exact calm o given
    · cases used
  have goesOn := inferTypes_ne_interrupted calmProber s ⟨path, bindings, kinds⟩
  unfold inferIn
  dsimp only
  split
  · rename_i stopped
    rw [stopped] at goesOn
    exact absurd rfl goesOn
  · exact ⟨_, rfl⟩
  · exact ⟨_, rfl⟩

/-- A request whose bindings can be read gets a response, and one that names the reason when the
    path cannot be used, unless the text of the kinds nests too deep, or a NUL character in the
    owner's path comes to be looked at because neither the kinds nor the project root are refused
    before it. -/
theorem respond_returns_iff (calm : ∀ o ∈ oracle, o.NeverStops) {bindings : BindingMap}
    (accepted : mapping r.nesting "bindings".toList r.bindings = .ok bindings) {s : ProbingState σ}
    (kept : s.probes.files.Kept) {projectRoot : Text} (rooted : '\x00' ∉ projectRoot) :
    (∃ response, (r.respond settings oracle projectRoot s).1 = .ok response ∧
      (∀ e, kindMap r.nesting r.kinds = .error e → response = refused bindings e.message r.owner) ∧
      ∀ kinds cause, kindMap r.nesting r.kinds = .ok kinds →
        s.probes.files.confine r.owner projectRoot = .error cause →
        response = refused bindings cause.message r.owner) ↔
      (∀ e, kindMap r.nesting r.kinds = .error e → e.isTooDeep = false) ∧
      ('\x00' ∈ r.owner → (∃ e, kindMap r.nesting r.kinds = .error e) ∨
        ∃ path, s.probes.files.resolve projectRoot = .error (.loop path)) := by
  have unusable : s.probes.files.confine r.owner projectRoot = .error .unusable ↔ _ :=
    kept.confine_eq_unusable_iff rooted
  unfold respond
  rw [accepted]
  dsimp only
  cases read : kindMap r.nesting r.kinds with
  | error e =>
    dsimp only
    cases deep : e.isTooDeep with
    | true => simp [deep]
    | false => simp [deep]
  | ok kinds =>
    by_cases stopped : s.probes.files.confine r.owner projectRoot = .error .unusable
    · rw [stopped]
      obtain ⟨inside, resolved⟩ := unusable.mp stopped
      refine iff_of_false (fun ⟨_, returned, _⟩ => by cases returned) fun ⟨_, refused⟩ => ?_
      rcases refused inside with ⟨_, unread⟩ | ⟨path, loops⟩
      · cases unread
      · exact resolved path loops
    · refine iff_of_true ?_ ⟨fun _ unread => (by cases unread), fun inside => ?_⟩
      · cases confined : s.probes.files.confine r.owner projectRoot with
        | ok place =>
          obtain ⟨response, returned⟩ := inferIn_ok calm s projectRoot (FileTree.placeText place)
            bindings kinds
          exact ⟨response, returned, fun _ unread => (by cases unread),
            fun _ cause _ refused => by cases refused⟩
        | error cause =>
          cases cause with
          | unusable => exact absurd confined stopped
          | emptyPath | outside | unresolved =>
            refine ⟨_, rfl, fun _ unread => (by cases unread), fun _ cause _ refused => ?_⟩
            obtain rfl := Except.error.inj refused
            rfl
      · right
        by_contra resolved
        exact stopped (unusable.mpr ⟨inside, fun path loops => resolved ⟨path, loops⟩⟩)

theorem respond_returns_outside :
    let r : InferenceRequest := ⟨"../a.ts".toList, .obj [(['a'], .str ['x'])], .null, none, none, 0⟩
    let oracle := Oracle.replying ⟨some 5, .error (.queryFailure ['f'])⟩
    let s : ProbingState Unit :=
      ⟨⟨⟨[], [([['p']], .directory)], none⟩, 7, 1, []⟩, .empty .default, 3, ()⟩
    oracle.NeverStops ∧ s.probes.files.Kept ∧
      (r.respond Settings.default (some oracle) "/p".toList s).1 = .ok
        ⟨[.unknown ['a']], [⟨.invalidInput, "File path outside project root: ../a.ts".toList,
          "../a.ts".toList⟩], false, none⟩ := by
  intro r oracle s
  have calm : ∀ o ∈ some oracle, o.NeverStops := fun o given => by
    obtain rfl := Option.some.inj given
    exact Oracle.neverStops_replying _
  have kept : s.probes.files.Kept := by constructor <;> decide
  have accepted : mapping r.nesting "bindings".toList r.bindings = .ok [(['a'], ['x'])] := rfl
  obtain ⟨response, returned, refusal⟩ :
      ∃ response, (r.respond Settings.default (some oracle) "/p".toList s).1 = .ok response ∧ _ :=
    (respond_returns_iff calm accepted kept (by decide)).mpr
      ⟨fun _ unread => (by cases unread), fun inside => absurd inside (by decide)⟩
  have kinds : kindMap r.nesting r.kinds = .ok [] := rfl
  have outside : s.probes.files.confine r.owner "/p".toList =
      .error (.outside "../a.ts".toList) := by decide +kernel
  rw [refusal.2 _ _ kinds outside] at returned
  exact ⟨calm oracle rfl, kept, returned⟩

theorem respond_stops_at_nul :
    let r : InferenceRequest := ⟨['a', '\x00', 'b'], .obj [(['x'], .str ['y'])], .null, none, none, 0⟩
    let oracle := Oracle.replying ⟨some 5, .ok none⟩
    let s : ProbingState Unit :=
      ⟨⟨⟨[], [([['p']], .directory)], none⟩, 7, 1, []⟩, .empty .default, 3, ()⟩
    oracle.NeverStops ∧ mapping r.nesting "bindings".toList r.bindings = .ok [(['x'], ['y'])] ∧
      kindMap r.nesting r.kinds = .ok [] ∧
      (r.respond Settings.default (some oracle) "/p".toList s).1 = .error .unusablePath :=
  ⟨Oracle.neverStops_replying _, rfl, rfl, by decide +kernel⟩

end InferenceRequest

end TemplateTypes
