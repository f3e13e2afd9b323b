import TemplateTypes.Proofs.Inference.Entries

namespace TemplateTypes

namespace InferenceRequest

variable {σ : Type} {r : InferenceRequest} {settings : Settings} {oracle : Option (Oracle σ)}
  {s after : ProbingState σ} {response : InferenceResponse}

/-- Each binding has its entry, and a request that failed has nothing but unknown ones. -/
structure Answered (bindings : BindingMap) (response : InferenceResponse) : Prop where
  entries : Answers (bindings.map (·.1)) response.types
  failed : response.success = false → response.types = unknownResults bindings

theorem answered_unknown (bindings : BindingMap) (problems : List Problem) :
    Answered bindings ⟨unknownResults bindings, problems, false, none⟩ :=
  ⟨answers_unknownResults bindings, fun _ => rfl⟩

theorem answered_inferIn {environmentRoot path : Text} {bindings kinds : BindingMap}
    (responded : r.inferIn settings oracle s environmentRoot path bindings kinds =
      (.ok response, after)) :
    Answered bindings response := by
  unfold inferIn at responded
  dsimp only at responded
  split at responded
  · cases responded
  · simp only [Prod.mk.injEq, Except.ok.injEq] at responded
    rw [← responded.1]
    exact answered_unknown bindings _
  · rename_i report between inferred
    simp only [Prod.mk.injEq, Except.ok.injEq] at responded
    rw [← responded.1]
    exact ⟨answers_inferTypes inferred, fun failed => by cases failed⟩

theorem respond_answers_each_binding {projectRoot : Text} {bindings : BindingMap}
    (accepted : mapping r.nesting "bindings".toList r.bindings = .ok bindings)
    (responded : r.respond settings oracle projectRoot s = (.ok response, after)) :
    Answered bindings response := by
  unfold respond at responded
  rw [accepted] at responded
  dsimp only at responded
  split at responded
  · split at responded
    · cases responded
    · simp only [Prod.mk.injEq, Except.ok.injEq] at responded
      rw [← responded.1]
      exact answered_unknown bindings _
  · split at responded
    · cases responded
    · simp only [Prod.mk.injEq, Except.ok.injEq] at responded
      rw [← responded.1]
      exact answered_unknown bindings _
    · exact answered_inferIn responded

/-- One of the names is answered by the oracle; the expression of the other is blank. -/
theorem respond_answers_each_binding_asked :
    let r : InferenceRequest :=
      ⟨"/p/a.ts".toList, .obj [(['a'], .str ['x']), (['b'], .str [])], .null, none, none, 0⟩
    let hover := "\x60\x60\x60ts\nconst x:  string | undefined\n\x60\x60\x60".toList
    let oracle := Oracle.replying ⟨some 5, .ok (some [.str hover])⟩
    let s : ProbingState Unit :=
      ⟨⟨⟨[], [([['p']], .directory)], none⟩, 7, 1, []⟩, .empty .default, 3, ()⟩
    ∃ response after,
      r.respond Settings.default (some oracle) "/p".toList s = (.ok response, after) ∧
      response.types =
        [⟨['a'], "string".toList, true, .high, .languageService⟩, .unknown ['b']] ∧
      Answered [(['a'], ['x']), (['b'], [])] response := by
  intro r hover oracle s
  have answer : (r.respond Settings.default (some oracle) "/p".toList s).1 =
      .ok ⟨[⟨['a'], "string".toList, true, .high, .languageService⟩, .unknown ['b']],
        [⟨.queryFailure, "b: Expression not found in probe component".toList, "/p/a.ts".toList⟩],
        true, some ['/', 'p']⟩ := by decide +kernel
  cases responded : r.respond Settings.default (some oracle) "/p".toList s with
  | mk result after =>
    rw [responded] at answer
    obtain rfl : result = _ := answer
    have accepted : mapping r.nesting "bindings".toList r.bindings =
        .ok [(['a'], ['x']), (['b'], [])] := rfl
    exact ⟨_, after, rfl, rfl, respond_answers_each_binding accepted responded⟩

end InferenceRequest

end TemplateTypes
