import TemplateTypes.Probe.Layout
import TemplateTypes.Proofs.Probe.Escape
import TemplateTypes.Proofs.Text.Spacing

namespace TemplateTypes

open Text

theorem Text.join_lines (first middle last : Text) (above below : List Text) :
    join ['\n'] ([first] ++ (above ++ middle :: below) ++ [last]) =
      (first ++ above.flatMap (fun t => '\n' :: t) ++ ['\n']) ++
        (middle ++ (below.flatMap (fun t => '\n' :: t) ++ '\n' :: last)) := by
  simp [join_cons]

namespace Probe

def linesBefore (bindings : List Binding) : Text :=
  "<div>".toList ++ bindings.flatMap (fun b => '\n' :: line b) ++ ['\n']

def linesAfter (bindings : List Binding) : Text :=
  bindings.flatMap (fun b => '\n' :: line b) ++ '\n' :: "</div>".toList

theorem template_append (before : List Binding) (b : Binding) (after : List Binding) :
    template (before ++ b :: after) = linesBefore before ++ (line b ++ linesAfter after) := by
  unfold template linesBefore linesAfter
  rw [List.map_append, List.map_cons, join_lines, List.flatMap_map, List.flatMap_map]

theorem template_at {bindings : List Binding} {i : Nat} {b : Binding}
    (there : bindings[i]? = some b) :
    template bindings = (linesBefore (bindings.take i) ++ opening b) ++
      (b.expression ++ (closing b ++ linesAfter (bindings.drop (i + 1)))) := by
  obtain ⟨bound, rfl⟩ := List.getElem?_eq_some_iff.mp there
  have parts : bindings.take i ++ bindings[i] :: bindings.drop (i + 1) = bindings := by simp
  have cut := template_append (bindings.take i) bindings[i] (bindings.drop (i + 1))
  rw [parts] at cut
  simpa [line] using cut

theorem length_linesBefore (bindings : List Binding) :
    (linesBefore bindings).length = (bindings.flatMap fun b => '\n' :: line b).length + 6 := by
  change ("<div>".toList ++ _ ++ ['\n']).length = _
  rw [List.length_append, List.length_append, Nat.add_comm "<div>".toList.length]
  rfl

theorem linesBefore_length_succ {bindings : List Binding} {i : Nat} {b : Binding}
    (there : bindings[i]? = some b) :
    (linesBefore (bindings.take (i + 1))).length =
      (linesBefore (bindings.take i)).length + (line b).length + 1 := by
  simp [length_linesBefore, List.take_add_one, there]
  omega

theorem linesBefore_length_le (bindings : List Binding) {i j : Nat} (le : i ≤ j) :
    (linesBefore (bindings.take i)).length ≤ (linesBefore (bindings.take j)).length := by
  induction le with
  | refl => exact Nat.le_refl _
  | @step j _ ih =>
    cases there : bindings[j]? with
    | none => simpa [List.take_add_one, there] using ih
    | some b =>
      rw [linesBefore_length_succ there]
      omega

theorem valueStartsFrom_getElem? (offset : Nat) (bindings : List Binding) (i : Nat) :
    (valueStartsFrom offset bindings)[i]? = bindings[i]?.map fun b =>
      offset + ((bindings.take i).flatMap fun b => '\n' :: line b).length + (opening b).length := by
  induction bindings generalizing offset i with
  | nil => simp [valueStartsFrom]
  | cons b bindings ih =>
    cases i with
    | zero => simp [valueStartsFrom]
    | succ i =>
      simp only [valueStartsFrom, List.getElem?_cons_succ, ih, List.take_succ_cons,
        List.flatMap_cons, List.length_append, List.length_cons]
      congr 1
      funext b
      omega

theorem length_valueStartsFrom (offset : Nat) (bindings : List Binding) :
    (valueStartsFrom offset bindings).length = bindings.length := by
  induction bindings generalizing offset with
  | nil => rfl
  | cons b more ih => rw [valueStartsFrom, List.length_cons, List.length_cons, ih]

theorem valueStarts_getElem? (bindings : List Binding) (i : Nat) :
    (valueStarts bindings)[i]? = bindings[i]?.map fun b =>
      (linesBefore (bindings.take i) ++ opening b).length := by
  rw [valueStarts, valueStartsFrom_getElem?]
  congr 1
  funext b
  rw [List.length_append, length_linesBefore]
  omega

theorem opening_getLast? (b : Binding) : (opening b).getLast? = some doubleQuote := by
  cases kind : b.kind <;> simp [opening, kind, List.getLast?_cons]

theorem closing_head? (b : Binding) : (closing b).head? = some doubleQuote := by
  cases kind : b.kind <;> simp [closing, kind]

theorem escapeTemplate_template {bindings : List Binding} {i : Nat} {b : Binding}
    (there : bindings[i]? = some b) :
    escapeTemplate (template bindings) =
      escapeTemplate (linesBefore (bindings.take i) ++ opening b) ++
        (escapeTemplate b.expression ++
          escapeTemplate (closing b ++ linesAfter (bindings.drop (i + 1)))) := by
  have quoteBefore : (linesBefore (bindings.take i) ++ opening b).getLast? = some doubleQuote := by
    simp [opening_getLast?]
  have quoteAfter : (closing b ++ linesAfter (bindings.drop (i + 1))).head? =
      some doubleQuote := by
    simp [closing_head?]
  rw [template_at there, escapeTemplate_append, escapeTemplate_append (a := b.expression)]
  · intro ⟨_, brace⟩
    rw [quoteAfter] at brace
    exact absurd brace (by decide)
  · intro ⟨dollar, _⟩
    rw [quoteBefore] at dollar
    exact absurd dollar (by decide)

end Probe

end TemplateTypes
