import TemplateTypes.Hover.Query
import TemplateTypes.Proofs.Markdown.Fence

namespace TemplateTypes

open Text Markdown

namespace HoverCall

structure EndsAt (call : HoverCall) (time : Nat) (outcome : Except Fault (Option (List Json))) :
    Prop where
  ended : call time = some (.result outcome)
  running : ∀ earlier < time, call earlier = none

variable {call : HoverCall} {outcome : Except Fault (Option (List Json))}

theorem EndsAt.await_eq {d : Nat} (ends : call.EndsAt d outcome) {time left : Nat}
    (begun : time ≤ d) (within : d < time + left) : call.await time left = .inTime d outcome := by
  induction left generalizing time with
  | zero => omega
  | succ left ih =>
    rw [await]
    rcases Nat.eq_or_lt_of_le begun with rfl | later
    · rw [ends.ended]
      rfl
    · rw [ends.running time later]
      exact ih later (by omega)

theorem await_of_running {time left : Nat}
    (running : ∀ t, time ≤ t → t < time + left → call t = none) : call.await time left = .late := by
  induction left generalizing time with
  | zero => rfl
  | succ left ih =>
    rw [await, running time (Nat.le_refl time) (by omega)]
    exact ih fun t begun within => running t (by omega) (by omega)

theorem await_congr {other : HoverCall} {time left : Nat}
    (same : ∀ t, time ≤ t → t < time + left → other t = call t) :
    other.await time left = call.await time left := by
  induction left generalizing time with
  | zero => rfl
  | succ left ih =>
    rw [await, await, same time (Nat.le_refl time) (by omega),
      ih fun t begun within => same t (by omega) (by omega)]

theorem await_cases (call : HoverCall) (time left : Nat) :
    call.await time left = .late ∨
      ∃ d ended, call d = some ended ∧ call.await time left = ended.answer d := by
  induction left generalizing time with
  | zero => exact .inl rfl
  | succ left ih =>
    rw [await]
    cases ended : call time with
    | none => exact ih (time + 1)
    | some comes => exact .inr ⟨time, comes, ended, rfl⟩

end HoverCall

/-- An end that oracles come to: texts, nothing, or a failure of some kind. -/
inductive Regular : CallEnd → Prop
  | answered (texts : List Text) : Regular (.result (.ok (some (texts.map .str))))
  | nothing : Regular (.result (.ok none))
  | failed {fault : Fault} (named : fault.name ≠ []) : Regular (.result (.error fault))

def filled (texts : List Text) : List Text := texts.filter (!·.isEmpty)

/-- What a query makes of the end of a call: it succeeds just where one of the texts that hold
    anything is fenced, with the first of them, and fails with a message where none is. -/
inductive Concluded (tags : List Text) : Except Fault (Option (List Json)) → HoverResult → Prop
  | found {texts before after : List Text} {selected : Text}
      (split : filled texts = before ++ selected :: after) (fenced : IsFenced tags selected)
      (others : ∀ t ∈ before, ¬ IsFenced tags t) :
      Concluded tags (.ok (some (texts.map .str))) (.found selected ((filled texts).map .str))
  | missed {texts : List Text} {message : Text} (told : message ≠ [])
      (none : ∀ t ∈ filled texts, ¬ IsFenced tags t) :
      Concluded tags (.ok (some (texts.map .str)))
        (.missed message .queryFailure ((filled texts).map .str))
  | nothing {message : Text} (told : message ≠ []) :
      Concluded tags (.ok none) (.missed message .queryFailure [])
  | failed {fault : Fault} (told : fault.summary ≠ []) :
      Concluded tags (.error fault) (.missed fault.summary (fault.code.getD .queryFailure) [])

theorem Fault.summary_ne_nil {fault : Fault} (named : fault.name ≠ []) : fault.summary ≠ [] := by
  unfold Fault.summary
  split
  · exact named
  · rename_i told
    simpa using told

namespace QueryClient

theorem select_texts (tags : List Text) (texts : List Text) :
    select tags (texts.map .str) = .ok (texts.find? (hasTaggedFence tags)) := by
  induction texts with
  | nil => rfl
  | cons t texts ih =>
    rw [List.map_cons, select, ih, List.find?_cons]
    cases hasTaggedFence tags t <;> rfl

theorem judge_texts {tags : List Text} (wordTags : WordTags tags) (kept : List Text) :
    (∃ before selected after, kept = before ++ selected :: after ∧ IsFenced tags selected ∧
      (∀ t ∈ before, ¬ IsFenced tags t) ∧
      judge tags (kept.map .str) = .ok (.found selected (kept.map .str))) ∨
    ∃ message, message ≠ [] ∧ (∀ t ∈ kept, ¬ IsFenced tags t) ∧
      judge tags (kept.map .str) = .ok (.missed message .queryFailure (kept.map .str)) := by
  have fenced := fun t => hasTaggedFence_iff_isFenced wordTags (t := t)
  cases kept with
  | nil => exact .inr ⟨_, by decide, by simp, rfl⟩
  | cons first more =>
    rw [judge, if_neg (by simp), select_texts]
    cases chosen : (first :: more).find? (hasTaggedFence tags) with
    | none =>
      refine .inr ⟨_, by decide, fun t member is => ?_, rfl⟩
      exact List.find?_eq_none.mp chosen t member ((fenced t).mpr is)
    | some selected =>
      obtain ⟨tagged, before, after, split, others⟩ := List.find?_eq_some_iff_append.mp chosen
      refine .inl ⟨before, selected, after, split, (fenced selected).mp tagged, ?_, rfl⟩
      intro t member is
      simpa [(fenced t).mpr is] using others t member

theorem conclude_of_regular {tags : List Text} (wordTags : WordTags tags) {ended : CallEnd}
    (regular : Regular ended) (deadline d : Nat) :
    ∃ outcome result, ended = .result outcome ∧
      conclude tags deadline (ended.answer d) = .ok result ∧ Concluded tags outcome result := by
  cases regular with
  | nothing => exact ⟨_, _, rfl, rfl, .nothing (by decide)⟩
  | failed named => exact ⟨_, _, rfl, rfl, .failed (Fault.summary_ne_nil named)⟩
  | answered texts =>
    have kept : ((some (texts.map Json.str)).getD []).filter Json.holds =
        (filled texts).map .str := List.filter_map
    rcases judge_texts wordTags (filled texts) with
      ⟨before, selected, after, split, fenced, others, judged⟩ | ⟨message, told, none, judged⟩
    · exact ⟨_, _, rfl, by rw [CallEnd.answer, conclude, kept, judged], .found split fenced others⟩
    · exact ⟨_, _, rfl, by rw [CallEnd.answer, conclude, kept, judged], .missed told none⟩

theorem timeout_eq (client : QueryClient) (requested : Option Int) :
    (client.timeout requested : Int) =
      min (max (requested.getD client.defaultTimeoutMs) 100) 10000 := by
  unfold timeout minTimeoutMs maxTimeoutMs
  omega

/-- What an oracle's call comes to before the deadline decides the query, and nothing that comes
    after it. -/
theorem queryAt_by_deadline {σ : Type} {client : QueryClient} (wordTags : WordTags client.tags)
    {oracle : Oracle σ} {s : σ} {files : FileTree} {uri : Text} {position : Position}
    (regular : ∀ t ended, oracle.call s files ⟨uri, position⟩ t = some ended → Regular ended)
    (requested : Option Int) :
    let call := oracle.call s files ⟨uri, position⟩
    let query := client.queryAt oracle s files uri position requested
    ∃ deadline : Nat,
      (deadline : Int) = min (max (requested.getD client.defaultTimeoutMs) 100) 10000 ∧
      (∀ d outcome, call.EndsAt d outcome → d < deadline → query.elapsedMs = d ∧
        ∃ result, query.result = .ok result ∧ Concluded client.tags outcome result) ∧
      ((∀ t ≤ deadline, call t = none) → query.elapsedMs = deadline ∧
        query.result = .ok (.missed (timeoutMessage deadline) .queryTimeout [])) ∧
      (∀ {τ : Type} (other : Oracle τ) (state : τ),
        (∀ t ≤ deadline, other.call state files ⟨uri, position⟩ t = call t) →
        let again := client.queryAt other state files uri position requested
        again.result = query.result ∧ again.elapsedMs = query.elapsedMs) ∧
      ∃ result, query.result = .ok result := by
  intro call query
  have result : query.result = conclude client.tags (client.timeout requested)
    (call.await 0 (client.timeout requested)) := rfl
  have taken : query.elapsedMs = elapsed (client.timeout requested)
    (call.await 0 (client.timeout requested)) := rfl
  refine ⟨client.timeout requested, timeout_eq client requested, ?_, ?_, ?_, ?_⟩
  · intro d outcome ends within
    obtain ⟨_, made, same, concluded, judged⟩ :=
      conclude_of_regular wordTags (regular d _ ends.ended) (client.timeout requested) d
    obtain rfl := CallEnd.result.inj same
    rw [ends.await_eq (Nat.zero_le d) (by omega)] at result taken
    exact ⟨taken, made, result.trans concluded, judged⟩
  · intro running
    rw [HoverCall.await_of_running fun t _ before => running t (by omega)] at result taken
    exact ⟨taken, result⟩
  · intro τ other state same again
    have awaited : (other.call state files ⟨uri, position⟩).await 0 (client.timeout requested) =
        call.await 0 (client.timeout requested) :=
      HoverCall.await_congr fun t _ before => same t (by omega)
    have otherResult : again.result = conclude client.tags (client.timeout requested)
      ((other.call state files ⟨uri, position⟩).await 0 (client.timeout requested)) := rfl
    have otherTaken : again.elapsedMs = elapsed (client.timeout requested)
      ((other.call state files ⟨uri, position⟩).await 0 (client.timeout requested)) := rfl
    rw [otherResult, otherTaken, awaited]
    exact ⟨result.symm, taken.symm⟩
  · rcases call.await_cases 0 (client.timeout requested) with late | ⟨d, ended, came, answered⟩
    · rw [late] at result
      exact ⟨_, result⟩
    · obtain ⟨_, made, _, concluded, _⟩ :=
        conclude_of_regular wordTags (regular d ended came) (client.timeout requested) d
      rw [answered] at result
      exact ⟨made, result.trans concluded⟩

/-- The second of three texts is empty, and the third one is fenced. -/
theorem queryAt_by_deadline_fenced :
    let texts := ["number".toList, [], "\x60\x60\x60ts\nlet x: number\n\x60\x60\x60".toList]
    let reply : Reply := ⟨some 99, .ok (some (texts.map .str))⟩
    let client : QueryClient := ⟨3000, typeScriptTags⟩
    let question : Question := ⟨"file:///a.ts".toList, ⟨2, 23⟩⟩
    let query := client.queryAt (.replying reply) () ⟨[], [], none⟩ question.uri question.position
      (some (-1))
    query.elapsedMs = 99 ∧ ∃ result, query.result = .ok result ∧
      Concluded typeScriptTags reply.outcome result := by
  intro texts reply client question query
  have wordTags : WordTags client.tags := ⟨by decide, by decide⟩
  have ends : reply.call.EndsAt 99 reply.outcome :=
    ⟨rfl, fun earlier before => if_neg (by omega)⟩
  have regular : ∀ t ended, (Oracle.replying reply).call () ⟨[], [], none⟩ question t = some ended →
      Regular ended := by
    intro t ended comes
    obtain ⟨_, same⟩ := Option.ite_none_right_eq_some.mp comes
    rw [← Option.some.inj same]
    exact .answered texts
  obtain ⟨deadline, clamped, inTime, _⟩ := queryAt_by_deadline wordTags regular (some (-1))
  have least : deadline = 100 := by
    rw [Option.getD_some] at clamped
    omega
  exact inTime 99 reply.outcome ends (by omega)

end QueryClient

end TemplateTypes
