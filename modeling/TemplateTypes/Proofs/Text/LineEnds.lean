import TemplateTypes.Probe.Position
import Mathlib.Data.List.DropRight

namespace TemplateTypes.Text

def unifyChar (c : Char) : Char := if c = '\r' then '\n' else c

def loneReturns : Text → Nat
  | [] => 0
  | '\r' :: '\n' :: rest => loneReturns rest
  | '\r' :: rest => loneReturns rest + 1
  | _ :: rest => loneReturns rest

def lastLine (t : Text) : Text := t.rtakeWhile (· != '\n')

theorem lastLine_of_notMem {t : Text} (single : '\n' ∉ t) : lastLine t = t :=
  List.rtakeWhile_eq_self_iff.mpr fun _ inside =>
    bne_iff_ne.mpr fun same => single (same ▸ inside)

theorem newline_notMem_lastLine (t : Text) : '\n' ∉ lastLine t := fun inside => by
  have kept := List.mem_rtakeWhile_imp inside
  simp at kept

theorem lastLine_concat {c : Char} (other : c ≠ '\n') (t : Text) :
    lastLine (t ++ [c]) = lastLine t ++ [c] :=
  List.rtakeWhile_concat_pos _ _ _ (bne_iff_ne.mpr other)

theorem lastLine_concat_newline (t : Text) : lastLine (t ++ ['\n']) = [] :=
  List.rtakeWhile_concat_neg _ _ _ (by simp)

theorem lastLine_append_newline (s t : Text) : lastLine (s ++ '\n' :: t) = lastLine t := by
  induction t using List.reverseRecOn with
  | nil => exact lastLine_concat_newline s
  | append_singleton t c ih =>
    rw [← List.cons_append, ← List.append_assoc]
    by_cases same : c = '\n'
    · rw [same, lastLine_concat_newline, lastLine_concat_newline]
    · rw [lastLine_concat same, ih, lastLine_concat same]

theorem lastLine_cons_of_mem {t : Text} (fed : '\n' ∈ t) (c : Char) :
    lastLine (c :: t) = lastLine t := by
  obtain ⟨before, after, rfl⟩ := List.append_of_mem fed
  rw [← List.cons_append, lastLine_append_newline, lastLine_append_newline]

theorem exists_lines_append_lastLine (t : Text) :
    ∃ lines, t = lines ++ lastLine t ∧ (lines = [] ∨ lines.getLast? = some '\n') := by
  induction t using List.reverseRecOn with
  | nil => exact ⟨[], rfl, .inl rfl⟩
  | append_singleton t c ih =>
    by_cases same : c = '\n'
    · refine ⟨t ++ [c], ?_, .inr (by rw [List.getLast?_concat, same])⟩
      rw [same, lastLine_concat_newline, List.append_nil]
    · obtain ⟨lines, whole, ended⟩ := ih
      refine ⟨lines, ?_, ended⟩
      rw [lastLine_concat same, ← List.append_assoc, ← whole]

theorem unifyLines_pair (t : Text) : unifyLines ('\r' :: '\n' :: t) = '\n' :: unifyLines t := rfl

theorem unifyLines_cons {c : Char} {t : Text} (whole : c = '\r' → t.head? ≠ some '\n') :
    unifyLines (c :: t) = unifyChar c :: unifyLines t := by
  by_cases returns : c = '\r'
  · subst returns
    match t, whole rfl with
    | [], _ => rfl
    | d :: rest, other =>
      have different : d ≠ '\n' := fun same => other (congrArg some same)
      simp [unifyLines, unifyChar, different]
  · simp [unifyLines, unifyChar, returns]

theorem loneReturns_pair (t : Text) : loneReturns ('\r' :: '\n' :: t) = loneReturns t := rfl

theorem loneReturns_cons {c : Char} {t : Text} (whole : c = '\r' → t.head? ≠ some '\n') :
    loneReturns (c :: t) = loneReturns t + if c = '\r' then 1 else 0 := by
  by_cases returns : c = '\r'
  · subst returns
    match t, whole rfl with
    | [], _ => rfl
    | d :: rest, other =>
      have different : d ≠ '\n' := fun same => other (congrArg some same)
      simp [loneReturns, different]
  · simp [loneReturns, returns]

theorem pairInduction {motive : Text → Prop} (nil : motive [])
    (pair : ∀ t, motive t → motive ('\r' :: '\n' :: t))
    (cons : ∀ c t, (c = '\r' → t.head? ≠ some '\n') → motive t → motive (c :: t)) (t : Text) :
    motive t := by
  fun_induction unifyLines t with
  | case1 => exact nil
  | case2 rest ih => exact pair rest ih
  | case3 rest noFeed ih =>
    refine cons _ rest (fun _ fed => ?_) ih
    cases rest with
    | nil => cases fed
    | cons d rest => exact noFeed rest (by rw [Option.some.inj fed])
  | case4 c rest _ other ih => exact cons c rest (fun same => absurd same other) ih

theorem exists_unifyLines_cons (c : Char) (t : Text) :
    ∃ rest, unifyLines (c :: t) = unifyChar c :: rest := by
  by_cases pair : c = '\r' ∧ t.head? = some '\n'
  · obtain ⟨rfl, fed⟩ := pair
    obtain ⟨rest, rfl⟩ := List.head?_eq_some_iff.mp fed
    exact ⟨unifyLines rest, rfl⟩
  · exact ⟨unifyLines t, unifyLines_cons fun returns fed => pair ⟨returns, fed⟩⟩

theorem return_notMem_unifyLines (t : Text) : '\r' ∉ unifyLines t := by
  induction t using pairInduction with
  | nil => exact List.not_mem_nil
  | pair t ih => exact List.not_mem_cons_of_ne_of_not_mem (by decide) ih
  | cons c t whole ih =>
    rw [unifyLines_cons whole]
    refine List.not_mem_cons_of_ne_of_not_mem ?_ ih
    unfold unifyChar
    split <;> simp_all [eq_comm]

theorem unifyLines_append {s t : Text}
    (apart : s.getLast? = some '\r' → t.head? ≠ some '\n') :
    unifyLines (s ++ t) = unifyLines s ++ unifyLines t := by
  induction s using pairInduction with
  | nil => rfl
  | pair s ih =>
    have later : s.getLast? = some '\r' → t.head? ≠ some '\n' := fun ends =>
      apart (by simp [List.getLast?_cons, ends])
    rw [List.cons_append, List.cons_append, unifyLines_pair, unifyLines_pair, ih later]
    rfl
  | cons c s whole ih =>
    have later : s.getLast? = some '\r' → t.head? ≠ some '\n' := fun ends =>
      apart (by simp [List.getLast?_cons, ends])
    have still : c = '\r' → (s ++ t).head? ≠ some '\n' := by
      intro returns
      cases s with
      | nil => exact apart (by rw [returns]; rfl)
      | cons d s => exact whole returns
    rw [List.cons_append, unifyLines_cons still, unifyLines_cons whole, ih later]
    rfl

theorem count_unifyLines (t : Text) :
    (unifyLines t).count '\n' = t.count '\n' + loneReturns t := by
  induction t using pairInduction with
  | nil => rfl
  | pair t ih =>
    have passed : ('\r' :: '\n' :: t).count '\n' = t.count '\n' + 1 := by simp
    rw [unifyLines_pair, loneReturns_pair, List.count_cons_self, ih, passed]
    omega
  | cons c t whole ih =>
    rw [unifyLines_cons whole, loneReturns_cons whole, List.count_cons, List.count_cons, ih]
    by_cases returns : c = '\r'
    · simp [unifyChar, returns]
      omega
    · simp [unifyChar, returns]
      omega

theorem lastLine_unifyLines {t : Text} (paired : loneReturns t = 0) :
    lastLine (unifyLines t) = lastLine t := by
  induction t using pairInduction with
  | nil => rfl
  | pair t ih =>
    rw [unifyLines_pair, ← List.nil_append ('\n' :: unifyLines t), lastLine_append_newline,
      ih paired, ← List.singleton_append, lastLine_append_newline]
  | cons c t whole ih =>
    rw [loneReturns_cons whole] at paired
    have other : c ≠ '\r' := by
      intro returns
      simp [returns] at paired
    have rest : loneReturns t = 0 := by omega
    have feeds : '\n' ∈ unifyLines t ↔ '\n' ∈ t := by
      rw [← List.count_pos_iff, ← List.count_pos_iff, count_unifyLines, rest, Nat.add_zero]
    rw [unifyLines_cons whole, unifyChar, if_neg other]
    by_cases fed : '\n' ∈ t
    · rw [lastLine_cons_of_mem (feeds.mpr fed), lastLine_cons_of_mem fed, ih rest]
    · have same : unifyLines t = t := by
        rw [← lastLine_of_notMem (fed ∘ feeds.mp), ih rest, lastLine_of_notMem fed]
      rw [same]

theorem loneReturns_eq_zero_iff (t : Text) :
    loneReturns t = 0 ↔ ∀ i, t[i]? = some '\r' → t[i + 1]? = some '\n' := by
  induction t using pairInduction with
  | nil => simp [loneReturns]
  | pair t ih =>
    rw [loneReturns_pair, ih]
    constructor
    · rintro later (_ | _ | i) returns
      · rfl
      · simp at returns
      · exact later i returns
    · exact fun all i returns => all (i + 2) returns
  | cons c t whole ih =>
    rw [loneReturns_cons whole]
    by_cases returns : c = '\r'
    · have lone : ¬ ∀ i, (c :: t)[i]? = some '\r' → (c :: t)[i + 1]? = some '\n' := fun all =>
        whole returns (by simpa [List.head?_eq_getElem?] using all 0 (by simp [returns]))
      rw [if_pos returns]
      exact iff_of_false (Nat.succ_ne_zero _) lone
    · rw [if_neg returns, Nat.add_zero, ih]
      constructor
      · rintro later (_ | i) here
        · exact absurd (Option.some.inj here) returns
        · exact later i here
      · exact fun all i here => all (i + 1) here

theorem loneReturns_eq_zero_iff_append {s t : Text}
    (apart : s.getLast? = some '\r' → t.head? ≠ some '\n') :
    loneReturns s = 0 ↔
      ∀ i < s.length, (s ++ t)[i]? = some '\r' → (s ++ t)[i + 1]? = some '\n' := by
  rw [loneReturns_eq_zero_iff]
  constructor
  · intro all i inside returns
    rw [List.getElem?_append_left inside] at returns
    have feeds := all i returns
    rwa [List.getElem?_append_left (List.getElem?_eq_some_iff.mp feeds).1]
  · intro all i returns
    have inside : i < s.length := (List.getElem?_eq_some_iff.mp returns).1
    have feeds := all i inside (by rwa [List.getElem?_append_left inside])
    by_cases last : i + 1 = s.length
    · have ends : s.getLast? = some '\r' := by
        rw [List.getLast?_eq_getElem?, ← last, Nat.add_sub_cancel, returns]
      rw [last, List.getElem?_append_right le_rfl, Nat.sub_self,
        ← List.head?_eq_getElem?] at feeds
      exact absurd feeds (apart ends)
    · rwa [List.getElem?_append_left (by omega)] at feeds

end TemplateTypes.Text

namespace TemplateTypes

open Text

theorem Position.ofOffset_column {t : Text} {i : Nat} (within : i ≤ t.length) :
    (Position.ofOffset t i).column = (lastLine (t.take i)).length := by
  have own : lastLineLength (t.take i) = (lastLine (t.take i)).length := by
    simp [lastLineLength, lastLine, List.rtakeWhile]
  have fits : (lastLine (t.take i)).length ≤ (t.take i).length :=
    (List.rtakeWhile_suffix _ _).length_le
  have long : (t.take i).length = i := List.length_take_of_le within
  show ((i : Int) - ((t.take i).length - lastLineLength (t.take i) : Nat)) = _
  rw [own]
  omega

end TemplateTypes
