import TemplateTypes.Proofs.Text.Spacing
import TemplateTypes.Text.WholeNumber

namespace TemplateTypes.Text

structure WrittenWith (n : Nat) (digits : List Nat) : Prop where
  written : ofNat n = digits.map Nat.digitChar
  small : ∀ d ∈ digits, d < 10
  value : digits.foldl (fun n d => n * 10 + d) 0 = n
  nonempty : digits ≠ []
  leading : 0 < n → digits.head? ≠ some 0

theorem exists_writtenWith (n : Nat) : ∃ digits, WrittenWith n digits := by
  induction n using Nat.strongRecOn with
  | ind n ih =>
    rcases Nat.lt_or_ge n 10 with single | several
    · refine ⟨[n], ?_, ?_, ?_, ?_, ?_⟩
      · exact Nat.toDigits_of_lt_base single
      · simpa using single
      · simp
      · simp
      · simpa using Nat.ne_of_gt
    · obtain ⟨digits, rest⟩ := ih (n / 10) (by omega)
      refine ⟨digits ++ [n % 10], ?_, ?_, ?_, ?_, ?_⟩
      · rw [ofNat, Nat.toDigits_of_base_le (by omega) several, List.map_append]
        exact congrArg (· ++ _) rest.written
      · intro d member
        rcases List.mem_append.mp member with member | member
        · exact rest.small d member
        · rw [List.mem_singleton.mp member]
          exact Nat.mod_lt n (by omega)
      · rw [List.foldl_append, rest.value]
        simp only [List.foldl_cons, List.foldl_nil]
        omega
      · simp
      · intro _
        rw [List.head?_append_of_ne_nil _ rest.nonempty]
        exact rest.leading (by omega)

theorem digitChar_facts : ∀ d < 10, (Nat.digitChar d).isDigit = true ∧
    digitValue? (Nat.digitChar d) = some d ∧ (Nat.digitChar d).toNat - 48 = d ∧
    isBlank (Nat.digitChar d) = false := by
  decide +kernel

theorem exists_digit_of_mem_ofNat {n : Nat} {c : Char} (member : c ∈ ofNat n) :
    ∃ d < 10, c = Nat.digitChar d := by
  obtain ⟨digits, w⟩ := exists_writtenWith n
  rw [w.written] at member
  obtain ⟨d, inDigits, rfl⟩ := List.mem_map.mp member
  exact ⟨d, w.small d inDigits, rfl⟩

theorem ofNat_ne_nil (n : Nat) : ofNat n ≠ [] := Nat.toDigits_ne_nil

theorem trimmed_ofNat (n : Nat) : Trimmed (ofNat n) := by
  have solid : ∀ c ∈ ofNat n, isBlank c = false := by
    intro c member
    obtain ⟨d, small, rfl⟩ := exists_digit_of_mem_ofNat member
    exact (digitChar_facts d small).2.2.2
  exact ⟨fun c first => solid c (List.mem_of_mem_head? first),
    fun c last => solid c (List.mem_of_mem_getLast? last)⟩

theorem digitsFrom?_digits {digits : List Nat} (small : ∀ d ∈ digits, d < 10) :
    ∀ afterDigit, (afterDigit = true ∨ digits ≠ []) →
      WholeNumber.digitsFrom? afterDigit (digits.map Nat.digitChar) = some digits := by
  induction digits with
  | nil => simp [WholeNumber.digitsFrom?]
  | cons d more ih =>
    intro afterDigit _
    have facts := digitChar_facts d (small d List.mem_cons_self)
    have plain : Nat.digitChar d ≠ '_' := by
      intro same
      rw [same] at facts
      simp at facts
    rw [List.map_cons, WholeNumber.digitsFrom?]
    simp [plain, facts.2.1, ih (fun e member => small e (List.mem_cons_of_mem d member)) true]

theorem digitChar_ne_of_not_isDigit {d : Nat} (small : d < 10) {c : Char}
    (other : c.isDigit = false) : Nat.digitChar d ≠ c := by
  rintro rfl
  rw [(digitChar_facts d small).1] at other
  cases other

theorem head_ofNat {n : Nat} (positive : 0 < n) :
    ∃ c more, ofNat n = c :: more ∧ c ≠ '0' := by
  obtain ⟨digits, w⟩ := exists_writtenWith n
  cases digits with
  | nil => exact absurd rfl w.nonempty
  | cons d more =>
    refine ⟨_, _, w.written, ?_⟩
    intro same
    exact w.leading positive (congrArg some (Nat.digitChar_eq_zero.mp same))

theorem read_ofNat {n : Nat} (short : (ofNat n).length ≤ WholeNumber.maxDigits) :
    WholeNumber.read (ofNat n) = .ok n := by
  obtain ⟨digits, w⟩ := exists_writtenWith n
  rw [w.written, List.length_map] at short
  have digitsRead := digitsFrom?_digits w.small false (.inr w.nonempty)
  have trimmed := (trimmed_ofNat n).trim_eq
  rw [w.written] at trimmed ⊢
  cases digits with
  | nil => exact absurd rfl w.nonempty
  | cons d more =>
    have small := w.small d List.mem_cons_self
    have noMinus : Nat.digitChar d ≠ '-' := digitChar_ne_of_not_isDigit small rfl
    have noPlus : Nat.digitChar d ≠ '+' := digitChar_ne_of_not_isDigit small rfl
    rw [List.map_cons] at trimmed digitsRead ⊢
    unfold WholeNumber.read
    rw [trimmed]
    simp [noMinus, noPlus, digitsRead, Nat.not_lt.mpr short, WholeNumber.ofDigits, w.value,
      -List.length_cons]

end TemplateTypes.Text
