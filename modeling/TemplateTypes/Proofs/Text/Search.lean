import TemplateTypes.Text.Basic
import Mathlib.Data.List.Basic

namespace TemplateTypes.Text

theorem after?_eq_some_iff {start t rest : Text} :
    after? start t = some rest ↔ t = start ++ rest := by
  induction start generalizing t with
  | nil => simp [after?]
  | cons s start ih =>
    cases t with
    | nil => simp [after?]
    | cons c t =>
      by_cases same : s = c
      · simp [after?, same, ih]
      · simp [after?, same, Ne.symm same]

theorem endsWith_single (t : Text) (c : Char) : endsWith t [c] = (t.getLast? == some c) := by
  rw [endsWith, ← List.head?_reverse]
  cases t.reverse with
  | nil => rfl
  | cons d back =>
    have turned : (c == d) = (d == c) := Bool.beq_comm
    simp [List.isPrefixOf, turned]

theorem endsWith_iff {t ending : Text} : endsWith t ending = true ↔ ending <:+ t := by
  rw [endsWith, List.isPrefixOf_iff_prefix, List.reverse_prefix]

theorem dropEnding_append (t ending : Text) : dropEnding (t ++ ending) ending = t := by
  rw [dropEnding, if_pos (endsWith_iff.mpr (List.suffix_append t ending))]
  simp

theorem dropEnding_of_not {t ending : Text} (other : endsWith t ending = false) :
    dropEnding t ending = t := by
  rw [dropEnding, other, if_neg (by simp)]

theorem find?_eq_some_iff {needle t : Text} {i : Nat} :
    find? needle t = some i ↔ needle <+: t.drop i ∧ ∀ j < i, ¬ needle <+: t.drop j := by
  induction t generalizing i with
  | nil =>
    cases needle with
    | nil =>
      cases i with
      | zero => simp [find?]
      | succ i =>
        simp only [find?, List.isEmpty_nil, ↓reduceIte, Option.some.injEq]
        constructor
        · intro same
          omega
        · intro ⟨_, earlier⟩
          exact absurd List.nil_prefix (earlier 0 (by omega))
    | cons c needle => simp [find?]
  | cons c rest ih =>
    simp only [find?, List.isPrefixOf_iff_prefix]
    by_cases here : needle <+: c :: rest
    · simp only [here, ↓reduceIte, Option.some.injEq]
      constructor
      · rintro rfl
        exact ⟨here, by omega⟩
      · intro ⟨_, earlier⟩
        cases i with
        | zero => rfl
        | succ i => exact absurd here (earlier 0 (by omega))
    · simp only [here, ↓reduceIte, Option.map_eq_some_iff]
      constructor
      · rintro ⟨k, found, rfl⟩
        obtain ⟨there, earlier⟩ := ih.mp found
        refine ⟨there, ?_⟩
        intro j bound
        cases j with
        | zero => exact here
        | succ j => exact earlier j (by omega)
      · intro ⟨there, earlier⟩
        cases i with
        | zero => exact absurd there here
        | succ i =>
          refine ⟨i, ih.mpr ⟨there, ?_⟩, rfl⟩
          intro j bound
          exact earlier (j + 1) (by omega)

theorem find?_of_isPrefix {needle t : Text} (here : needle <+: t) : find? needle t = some 0 :=
  find?_eq_some_iff.mpr ⟨here, by omega⟩

theorem exists_find? (before needle behind : Text) :
    ∃ i, find? needle (before ++ (needle ++ behind)) = some i := by
  induction before with
  | nil => exact ⟨0, find?_of_isPrefix (List.prefix_append needle behind)⟩
  | cons c before ih =>
    obtain ⟨i, found⟩ := ih
    rw [List.cons_append, find?, found]
    split
    · exact ⟨0, rfl⟩
    · exact ⟨i + 1, rfl⟩

theorem findFrom?_of_isPrefix {needle t : Text} {start : Nat} (bound : start ≤ t.length)
    (here : needle <+: t.drop start) : findFrom? needle t start = some start := by
  have within : ¬ t.length < start := by omega
  simp [findFrom?, within, find?_of_isPrefix here]

theorem find?_eq_none_of_not_isInfix {needle t : Text} (absent : ¬ needle <:+: t) :
    find? needle t = none := by
  cases found : find? needle t with
  | none => rfl
  | some i =>
    obtain ⟨here, _⟩ := find?_eq_some_iff.mp found
    exact absurd (here.isInfix.trans (List.drop_suffix i t).isInfix) absent

theorem find?_eq_none_of_not_mem {needle t : Text} {c : Char} (within : c ∈ needle)
    (absent : c ∉ t) : find? needle t = none := by
  induction t with
  | nil =>
    have nonempty : needle ≠ [] := List.ne_nil_of_mem within
    simp [find?, nonempty]
  | cons d rest ih =>
    have elsewhere : ¬ needle <+: d :: rest := fun here => absent (here.subset within)
    have absentRest : c ∉ rest := fun member => absent (List.mem_cons_of_mem d member)
    simp [find?, List.isPrefixOf_iff_prefix, elsewhere, ih absentRest]

theorem includes_eq_false_of_not_mem {needle t : Text} {c : Char} (within : c ∈ needle)
    (absent : c ∉ t) : includes t needle = false := by
  rw [includes, find?_eq_none_of_not_mem within absent, Option.isSome_none]

theorem lt_length_of_isPrefix_drop {needle t : Text} {i : Nat} (nonempty : needle ≠ [])
    (here : needle <+: t.drop i) : i < t.length := by
  by_contra beyond
  rw [List.drop_of_length_le (by omega), List.prefix_nil] at here
  exact nonempty here

theorem includes_eq_false_of_find? {needle before part behind : Text} {i : Nat}
    (nonempty : needle ≠ []) (first : find? needle (before ++ (part ++ behind)) = some i)
    (later : before.length + part.length ≤ i) : includes part needle = false := by
  rw [includes, Option.isSome_eq_false_iff, Option.isNone_iff_eq_none]
  cases found : find? needle part with
  | none => rfl
  | some j =>
    have here := (find?_eq_some_iff.mp found).1
    have room := lt_length_of_isPrefix_drop nonempty here
    refine absurd ?_ ((find?_eq_some_iff.mp first).2 (before.length + j) (by omega))
    rw [List.drop_length_add_append, List.drop_append_of_le_length (by omega)]
    exact here.trans (List.prefix_append _ _)

theorem prefix_append_separator {needle : Text} {separator : Char} (free : separator ∉ needle)
    (a t : Text) : needle <+: a ++ separator :: t ↔ needle <+: a := by
  induction needle generalizing a with
  | nil => simp
  | cons c needle ih =>
    have different : c ≠ separator := fun same => free (by simp [same])
    have freeRest : separator ∉ needle := fun member => free (List.mem_cons_of_mem c member)
    cases a with
    | nil => simp [List.cons_prefix_cons, different]
    | cons d a => simp only [List.cons_append, List.cons_prefix_cons, ih freeRest a]

theorem find?_append_separator {needle : Text} {separator : Char} (nonempty : needle ≠ [])
    (free : separator ∉ needle) (a t : Text) :
    find? needle (a ++ separator :: t) =
      (find? needle a).or ((find? needle t).map (· + (a.length + 1))) := by
  induction a with
  | nil =>
    have elsewhere : ¬ needle <+: separator :: t := by
      have ends := prefix_append_separator free [] t
      simpa [nonempty] using ends
    simp [find?, List.isPrefixOf_iff_prefix, elsewhere, nonempty]
  | cons c a ih =>
    have ends := prefix_append_separator free (c :: a) t
    simp only [List.cons_append] at ends ⊢
    simp only [find?, List.isPrefixOf_iff_prefix, ends, ih]
    by_cases here : needle <+: c :: a
    · simp [here]
    · simp only [here, ↓reduceIte, List.length_cons]
      cases find? needle a with
      | some k => rfl
      | none =>
        cases find? needle t with
        | none => rfl
        | some k => simp only [Option.map_none, Option.none_or, Option.map_some, Nat.add_assoc]

theorem isInfix_append_separator {needle : Text} {separator : Char} (free : separator ∉ needle)
    (a t : Text) :
    needle <:+: a ++ separator :: t ↔ needle <:+: a ∨ needle <:+: separator :: t := by
  induction a with
  | nil =>
    rw [List.nil_append, List.infix_nil]
    constructor
    · exact .inr
    · rintro (rfl | there)
      · exact List.nil_infix
      · exact there
  | cons c a ih =>
    have ends := prefix_append_separator free (c :: a) t
    rw [List.cons_append] at ends
    rw [List.cons_append, List.infix_cons_iff, List.infix_cons_iff, ends, ih, or_assoc]

def FirstFrom (needle t : Text) (start i : Nat) : Prop :=
  start ≤ i ∧ needle <+: t.drop i ∧ ∀ j < i, start ≤ j → ¬ needle <+: t.drop j

theorem isInfix_drop_iff {needle t : Text} {start : Nat} :
    needle <:+: t.drop start ↔ ∃ i, start ≤ i ∧ needle <+: t.drop i := by
  constructor
  · rintro ⟨before, behind, whole⟩
    refine ⟨start + before.length, Nat.le_add_right _ _, behind, ?_⟩
    rw [← List.drop_drop, ← whole, List.append_assoc, List.drop_left]
  · rintro ⟨i, from_start, here⟩
    have later : t.drop i = (t.drop start).drop (i - start) := by
      rw [List.drop_drop, Nat.add_sub_cancel' from_start]
    rw [later] at here
    exact here.isInfix.trans (List.drop_suffix _ _).isInfix

theorem isInfix_drop_append_separator {needle : Text} {separator : Char}
    (free : separator ∉ needle) (a t : Text) (start : Nat) :
    needle <:+: (a ++ separator :: t).drop start ↔
      needle <:+: a.drop start ∨ needle <:+: (separator :: t).drop (start - a.length) := by
  rcases Nat.le_total start a.length with within | beyond
  · rw [List.drop_append_of_le_length within, Nat.sub_eq_zero_of_le within, List.drop_zero]
    exact isInfix_append_separator free _ t
  · rw [List.drop_append, List.drop_of_length_le beyond, List.nil_append, List.infix_nil]
    refine ⟨.inr, fun either => ?_⟩
    rcases either with rfl | there
    · exact List.nil_infix
    · exact there

theorem exists_firstFrom {needle t : Text} {start i : Nat} (begun : start ≤ i)
    (here : needle <+: t.drop i) : ∃ first ≤ i, FirstFrom needle t start first := by
  induction i using Nat.strongRecOn with
  | ind i ih =>
    by_cases earlier : ∃ j < i, start ≤ j ∧ needle <+: t.drop j
    · obtain ⟨j, before, from_start, there⟩ := earlier
      obtain ⟨first, bound, least⟩ := ih j before from_start there
      exact ⟨first, by omega, least⟩
    · exact ⟨i, Nat.le_refl i, begun, here,
        fun j before from_start there => earlier ⟨j, before, from_start, there⟩⟩

theorem exists_firstFrom_iff {needle t : Text} {start : Nat} :
    (∃ i, FirstFrom needle t start i) ↔ needle <:+: t.drop start := by
  rw [isInfix_drop_iff]
  constructor
  · rintro ⟨i, begun, here, _⟩
    exact ⟨i, begun, here⟩
  · rintro ⟨i, begun, here⟩
    obtain ⟨first, _, least⟩ := exists_firstFrom begun here
    exact ⟨first, least⟩

theorem isPrefix_drop_append {needle front : Text} {i : Nat} (nonempty : needle ≠ [])
    (here : needle <+: front.drop i) (behind : Text) : needle <+: (front ++ behind).drop i := by
  rw [List.drop_append_of_le_length (Nat.le_of_lt (lt_length_of_isPrefix_drop nonempty here))]
  exact here.trans (List.prefix_append _ _)

theorem FirstFrom.of_append {needle front behind : Text} {start i : Nat} (nonempty : needle ≠ [])
    (first : FirstFrom needle (front ++ behind) start i) (there : needle <:+: front.drop start) :
    FirstFrom needle front start i := by
  obtain ⟨begun, here, earlier⟩ := first
  refine ⟨begun, ?_, fun j before from_start inside =>
    earlier j before from_start (isPrefix_drop_append nonempty inside behind)⟩
  obtain ⟨j, from_start, inside⟩ := isInfix_drop_iff.mp there
  have order : i ≤ j := Nat.le_of_not_lt fun before =>
    earlier j before from_start (isPrefix_drop_append nonempty inside behind)
  have room := inside.length_le
  have within := lt_length_of_isPrefix_drop nonempty inside
  rw [List.drop_append_of_le_length (by omega)] at here
  refine List.prefix_of_prefix_length_le here (List.prefix_append _ _) ?_
  rw [List.length_drop] at room ⊢
  omega

section

variable {needle t : Text} {start : Nat}

theorem findFrom?_eq_some_iff {i : Nat} (nonempty : needle ≠ []) :
    findFrom? needle t start = some i ↔ FirstFrom needle t start i := by
  have shifted : ∀ j, (t.drop start).drop j = t.drop (start + j) := fun j => List.drop_drop
  unfold findFrom?
  split
  · rename_i beyond
    refine iff_of_false (by simp) fun ⟨from_start, here, _⟩ => ?_
    have within := lt_length_of_isPrefix_drop nonempty here
    omega
  · rw [Option.map_eq_some_iff]
    constructor
    · rintro ⟨k, found, rfl⟩
      obtain ⟨here, earlier⟩ := find?_eq_some_iff.mp found
      refine ⟨Nat.le_add_left _ _, ?_, fun j before from_start => ?_⟩
      · rwa [shifted, Nat.add_comm] at here
      · have none := earlier (j - start) (by omega)
        rwa [shifted, Nat.add_sub_cancel' from_start] at none
    · rintro ⟨from_start, here, earlier⟩
      refine ⟨i - start, find?_eq_some_iff.mpr ⟨?_, fun j before => ?_⟩, by omega⟩
      · rwa [shifted, Nat.add_sub_cancel' from_start]
      · rw [shifted]
        exact earlier _ (by omega) (Nat.le_add_right _ _)

theorem findFrom?_eq_none_iff (nonempty : needle ≠ []) :
    findFrom? needle t start = none ↔ ¬ needle <:+: t.drop start := by
  rw [← exists_firstFrom_iff, Option.eq_none_iff_forall_ne_some, not_exists]
  exact forall_congr' fun i => not_congr (findFrom?_eq_some_iff nonempty)

end

theorem findFrom?_append_left (needle before t : Text) (start : Nat) :
    findFrom? needle (before ++ t) (before.length + start) =
      (findFrom? needle t start).map (before.length + ·) := by
  have rest : (before ++ t).drop (before.length + start) = t.drop start :=
    List.drop_length_add_append start
  unfold findFrom?
  rw [rest, List.length_append]
  by_cases beyond : t.length < start
  · rw [if_pos beyond, if_pos (by omega), Option.map_none]
  · rw [if_neg beyond, if_neg (by omega), Option.map_map]
    congr 1
    funext i
    simp only [Function.comp_apply]
    omega

end TemplateTypes.Text
