import TemplateTypes.Inference.Request
import TemplateTypes.Proofs.Probe.Layout
import TemplateTypes.Proofs.TypeText.Normal

namespace TemplateTypes

open Text

/-- An entry without a type is the unknown one; an inferred type says something. -/
structure InferredType.WellFormed (e : InferredType) : Prop where
  missing : e.inferred = false →
    e.type = TypeText.unknown ∧ e.confidence = .low ∧ e.origin = .fallback
  found : e.inferred = true →
    e.origin ≠ .fallback ∧ e.type ≠ TypeText.unknown ∧ TypeText.IsNormal e.type

structure Answers (names : List Text) (entries : List InferredType) : Prop where
  inOrder : entries.map (·.name) = names
  wellFormed : ∀ e ∈ entries, e.WellFormed

theorem wellFormed_unknown (name : Text) : (InferredType.unknown name).WellFormed :=
  ⟨fun _ => ⟨rfl, rfl, rfl⟩, fun inferred => by cases inferred⟩

theorem answers_unknownResults (bindings : BindingMap) :
    Answers (bindings.map (·.1)) (unknownResults bindings) := by
  constructor
  · simp [unknownResults, InferredType.unknown]
  · intro e member
    obtain ⟨binding, _, rfl⟩ := List.mem_map.mp member
    exact wellFormed_unknown binding.1

theorem Answers.cons {names : List Text} {entries : List InferredType} {e : InferredType}
    (first : e.WellFormed) (rest : Answers names entries) :
    Answers (e.name :: names) (e :: entries) := by
  constructor
  · rw [List.map_cons, rest.inOrder]
  · intro other member
    rcases List.mem_cons.mp member with rfl | member
    · exact first
    · exact rest.wellFormed other member

theorem isNormal_of_extractType? {hover : Text} {found : ExtractedType}
    (extracted : extractType? hover = some found) : TypeText.IsNormal found.type := by
  unfold extractType? at extracted
  cases block : Markdown.codeBlock? hover with
  | none => simp [block] at extracted
  | some signature =>
    simp only [block, Option.ite_none_left_eq_some, Option.some.injEq] at extracted
    rw [← extracted.2]
    dsimp only
    exact TypeText.normalize_isNormal _

theorem Local.entry_name (name : Text) (signature : Option Text) :
    (entry name signature).name = name := by
  unfold entry
  split
  · rfl
  · split <;> rfl

theorem Local.entry_wellFormed (name : Text) (signature : Option Text) :
    (entry name signature).WellFormed := by
  unfold entry
  split
  · exact wellFormed_unknown name
  · rename_i found extracted
    split
    · exact wellFormed_unknown name
    · rename_i specific
      obtain ⟨text, _, extracted⟩ := Option.bind_eq_some_iff.mp extracted
      have named : found.type ≠ TypeText.unknown := by
        intro same
        simp [same] at specific
      constructor
      · intro inferred
        cases inferred
      · exact fun _ => ⟨by simp, named, isNormal_of_extractType? extracted⟩

theorem Local.answers_infer (files : FileTree) (now : Int) (owner : Text) (bindings : BindingMap)
    (cache : WorkspaceCache) :
    Answers (bindings.map (·.1)) (infer files now owner bindings cache).1 := by
  induction bindings generalizing cache with
  | nil => exact ⟨rfl, by simp [infer]⟩
  | cons binding more ih =>
    obtain ⟨name, expression⟩ := binding
    simp only [infer]
    have first := entry_wellFormed name
      ((describe cache files now owner expression).1.toOption.bind id)
    have rest := (ih (describe cache files now owner expression).2).cons first
    rwa [entry_name] at rest

namespace Prober

theorem wellFormed_of_entryOf {name hover : Text} {e : InferredType}
    (judged : entryOf name hover = .ok e) : e.WellFormed ∧ e.name = name := by
  unfold entryOf at judged
  cases extracted : extractType? hover with
  | none => simp [extracted] at judged
  | some found =>
    by_cases vague : found.type = TypeText.unknown
    · simp [extracted, vague] at judged
    · simp only [extracted, beq_iff_eq, vague, ↓reduceIte, Except.ok.injEq] at judged
      rw [← judged]
      refine ⟨⟨?_, ?_⟩, rfl⟩
      · intro inferred
        cases inferred
      · exact fun _ => ⟨by simp, vague, isNormal_of_extractType? extracted⟩

theorem wellFormed_of_judge {name : Text} {result : Except Stop HoverResult} {e : InferredType}
    (judged : judge name result = .ok e) : e.WellFormed ∧ e.name = name := by
  unfold judge at judged
  split at judged
  · cases judged
  · cases judged
  · rename_i hover candidates
    cases found : entryOf name hover with
    | error fault => simp [found] at judged
    | ok entry =>
      simp only [found, Except.ok.injEq] at judged
      exact wellFormed_of_entryOf (judged ▸ found)

variable {σ : Type}

theorem wellFormed_of_askBinding {p : Prober σ} {files : FileTree} {artifact : Artifact}
    {b : Binding} {start : Nat} {s after : σ} {e : InferredType}
    (asked : askBinding p files artifact b start s = (.ok e, after)) :
    e.WellFormed ∧ e.name = b.name := by
  unfold askBinding at asked
  dsimp only at asked
  split at asked
  · cases asked
  · exact wellFormed_of_judge (congrArg Prod.fst asked)

theorem answers_askAll (p : Prober σ) (files : FileTree) (artifact : Artifact)
    (searches : List (Binding × Nat)) {s after : σ} {report : Report}
    (asked : askAll p files artifact searches s = (.ok report, after)) :
    Answers (searches.map (·.1.name)) report.results := by
  induction searches generalizing s after report with
  | nil =>
    simp only [askAll, Prod.mk.injEq, Except.ok.injEq] at asked
    rw [← asked.1]
    exact ⟨rfl, by simp⟩
  | cons search more ih =>
    obtain ⟨b, start⟩ := search
    unfold askAll at asked
    split at asked
    · cases asked
    · rename_i fault between first
      split at asked
      · rename_i rest final others
        simp only [Prod.mk.injEq, Except.ok.injEq] at asked
        rw [← asked.1]
        exact (ih others).cons (wellFormed_unknown b.name)
      · rename_i stopped
        exact absurd asked (stopped _ _)
    · rename_i entry between first
      obtain ⟨entryFormed, named⟩ := wellFormed_of_askBinding first
      split at asked
      · rename_i rest final others
        simp only [Prod.mk.injEq, Except.ok.injEq] at asked
        have answers := (ih others).cons entryFormed
        rw [named] at answers
        rw [← asked.1]
        exact answers
      · rename_i stopped
        exact absurd asked (stopped _ _)

theorem bindings_searches (bindings : List Binding) : (searches bindings).map (·.1) = bindings := by
  have sameLength : (Probe.valueStarts bindings).length = bindings.length :=
    Probe.length_valueStartsFrom 6 bindings
  unfold searches
  exact List.map_fst_zip (by simp [sameLength])

theorem names_searches (bindings : List Binding) :
    (searches bindings).map (·.1.name) = bindings.map (·.name) := by
  calc (searches bindings).map (·.1.name)
      = ((searches bindings).map (·.1)).map (·.name) := by simp
    _ = bindings.map (·.name) := by rw [bindings_searches]

theorem answers_probe {p : Prober σ} {s after : ProbingState σ} {map : BindingMap}
    {bindings : List Binding} {host : Option ComponentHost} {report : Report}
    (named : bindings.map (·.name) = map.map (·.1))
    (probed : p.probe s map bindings host = (.ok report, after)) :
    Answers (map.map (·.1)) report.results := by
  unfold probe at probed
  split at probed
  · simp only [Prod.mk.injEq, Except.ok.injEq] at probed
    rw [← probed.1]
    exact answers_unknownResults map
  · rename_i artifact probes materialized
    cases asked : askAll p probes.files artifact (searches bindings) s.oracle with
    | mk result oracle =>
      simp only [asked, Prod.mk.injEq] at probed
      have answers := answers_askAll p probes.files artifact (searches bindings)
        (asked.trans (by rw [probed.1]))
      rwa [names_searches, named] at answers

theorem map_of_mapM {ε α β γ : Type} {f : α → Except ε β} {after : β → γ} {before : α → γ}
    (keeps : ∀ a b, f a = .ok b → after b = before a) {sources : List α} {results : List β}
    (mapped : sources.mapM f = .ok results) : results.map after = sources.map before := by
  induction sources generalizing results with
  | nil =>
    simp only [List.mapM_nil, pure, Except.pure, Except.ok.injEq] at mapped
    rw [← mapped]
    rfl
  | cons a more ih =>
    rw [List.mapM_cons] at mapped
    cases first : f a with
    | error e => simp [first, Bind.bind, Except.bind] at mapped
    | ok b =>
      cases rest : more.mapM f with
      | error e => simp [first, rest, Bind.bind, Except.bind] at mapped
      | ok bs =>
        simp only [first, rest, Bind.bind, Except.bind, pure, Except.pure,
          Except.ok.injEq] at mapped
        rw [← mapped, List.map_cons, List.map_cons, keeps a b first, ih rest]

theorem names_toBindings {context : InferenceContext} {bindings : List Binding}
    (read : context.toBindings = .ok bindings) :
    bindings.map (·.name) = context.bindings.map (·.1) := by
  refine map_of_mapM (fun binding b made => ?_) read
  cases kind : context.kindOf binding.1 with
  | error e => simp [kind, Bind.bind, Except.bind] at made
  | ok k =>
    simp only [kind, Bind.bind, Except.bind, pure, Except.pure, Except.ok.injEq] at made
    rw [← made]

theorem answers_infer {p : Prober σ} {s after : ProbingState σ} {context : InferenceContext}
    {report : Report} (inferred : p.infer s context = (.ok report, after)) :
    Answers (context.bindings.map (·.1)) report.results := by
  unfold infer at inferred
  split at inferred
  · rename_i none
    simp only [Prod.mk.injEq, Except.ok.injEq] at inferred
    rw [List.isEmpty_iff.mp none, ← inferred.1]
    exact ⟨rfl, by simp⟩
  · split at inferred
    · simp only [Prod.mk.injEq, Except.ok.injEq] at inferred
      rw [← inferred.1]
      exact answers_unknownResults context.bindings
    · split at inferred
      · cases inferred
      · rename_i bindings read
        exact answers_probe (names_toBindings read) inferred

end Prober

theorem Merge.entryFor_cases (candidates : List InferredType) (current : InferredType) :
    entryFor candidates current = current ∨
      entryFor candidates current ∈ candidates ∧
        (entryFor candidates current).name = current.name := by
  unfold entryFor
  split
  · split
    · rename_i candidate found
      unfold better
      split
      · exact .inr ⟨List.mem_of_find?_eq_some found, by simpa using List.find?_some found⟩
      · exact .inl rfl
    · exact .inl rfl
  · exact .inl rfl

theorem Merge.answers_fill {σ : Type} {names : List Text} {report : Report}
    (s : ProbingState σ) (context : InferenceContext) (answers : Answers names report.results) :
    Answers names (fill s context report).1.results := by
  unfold fill
  dsimp only
  split
  · exact answers
  · have candidates := Local.answers_infer s.probes.files s.now context.owner
      (weakBindings context.bindings report.results) s.cache
    generalize Local.infer s.probes.files s.now context.owner
      (weakBindings context.bindings report.results) s.cache = found at candidates
    constructor
    · rw [← answers.inOrder, List.map_map]
      apply List.map_congr_left
      intro e _
      rcases entryFor_cases found.1 e with kept | ⟨_, named⟩
      · exact congrArg InferredType.name kept
      · exact named
    · intro e member
      obtain ⟨current, inReport, rfl⟩ := List.mem_map.mp member
      rcases entryFor_cases found.1 current with kept | ⟨candidate, _⟩
      · rw [kept]
        exact answers.wellFormed current inReport
      · exact candidates.wellFormed _ candidate

theorem answers_inferTypes {σ : Type} {prober : Option (Prober σ)} {s after : ProbingState σ}
    {context : InferenceContext} {report : Report}
    (inferred : inferTypes prober s context = (.ok report, after)) :
    Answers (context.bindings.map (·.1)) report.results := by
  unfold inferTypes at inferred
  split at inferred
  · rename_i none
    simp only [Prod.mk.injEq, Except.ok.injEq] at inferred
    rw [List.isEmpty_iff.mp none, ← inferred.1]
    exact ⟨rfl, by simp⟩
  · split at inferred
    · simp only [Prod.mk.injEq, Except.ok.injEq] at inferred
      rw [← inferred.1]
      exact Local.answers_infer ..
    · rename_i p
      split at inferred
      · cases inferred
      · rename_i first between probed
        simp only [Prod.mk.injEq, Except.ok.injEq] at inferred
        rw [← inferred.1]
        exact Merge.answers_fill between context (Prober.answers_infer probed)

end TemplateTypes
