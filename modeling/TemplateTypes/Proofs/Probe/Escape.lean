import TemplateTypes.Probe.Escape
import Mathlib.Data.List.Basic

namespace TemplateTypes

open Text

def isEscapedBefore (c : Char) (next : Option Char) : Bool :=
  c == '\\' || c == backtick || (c == '$' && next == some '\x7b')

def escapedChar (c : Char) (next : Option Char) : Text :=
  if isEscapedBefore c next then ['\\', c] else [c]

theorem escapeTemplate_cons (c : Char) (rest : Text) :
    escapeTemplate (c :: rest) = escapedChar c rest.head? ++ escapeTemplate rest := by
  by_cases slash : c = '\\'
  · subst slash
    simp [escapeTemplate, escapedChar, isEscapedBefore]
  by_cases tick : c = backtick
  · subst tick
    simp [escapeTemplate, escapedChar, isEscapedBefore]
  by_cases dollar : c = '$' ∧ rest.head? = some '\x7b'
  · obtain ⟨rfl, brace⟩ := dollar
    obtain ⟨more, rfl⟩ := List.head?_eq_some_iff.mp brace
    simp [escapeTemplate, escapedChar, isEscapedBefore]
  · have plain : isEscapedBefore c rest.head? = false := by
      simpa [isEscapedBefore, slash, tick] using dollar
    rw [escapeTemplate]
    · simp [escapedChar, plain]
    · exact slash
    · exact tick
    · intro more same tail
      exact dollar ⟨same, by simp [tail]⟩

theorem escapedChar_of_ne_brace {c : Char} {next : Option Char}
    (apart : ¬ (c = '$' ∧ next = some '\x7b')) : escapedChar c next = escapedChar c none := by
  have dollar : (c == '$' && next == some '\x7b') = false := by simpa using apart
  simp [escapedChar, isEscapedBefore, dollar]

theorem escapedChar_length_le (c : Char) (next : Option Char) :
    (escapedChar c none).length ≤ (escapedChar c next).length := by
  by_cases dollar : c = '$' ∧ next = some '\x7b'
  · obtain ⟨rfl, rfl⟩ := dollar
    decide
  · exact Nat.le_of_eq (congrArg List.length (escapedChar_of_ne_brace dollar).symm)

theorem escapedChar_length_pos (c : Char) (next : Option Char) :
    0 < (escapedChar c next).length := by
  unfold escapedChar
  split <;> simp

theorem escapeTemplate_append {a b : Text}
    (apart : ¬ (a.getLast? = some '$' ∧ b.head? = some '\x7b')) :
    escapeTemplate (a ++ b) = escapeTemplate a ++ escapeTemplate b := by
  induction a with
  | nil => simp [escapeTemplate]
  | cons c a ih =>
    rw [List.cons_append, escapeTemplate_cons, escapeTemplate_cons]
    cases a with
    | nil =>
      have apart : ¬ (c = '$' ∧ b.head? = some '\x7b') := by simpa using apart
      simp [escapedChar_of_ne_brace apart, escapeTemplate]
    | cons d a =>
      have apart : ¬ ((d :: a).getLast? = some '$' ∧ b.head? = some '\x7b') := by
        simpa using apart
      rw [ih apart]
      simp

theorem escapeTemplate_length_append (a b : Text) :
    (escapeTemplate a).length + (escapeTemplate b).length ≤ (escapeTemplate (a ++ b)).length := by
  induction a with
  | nil => simp [escapeTemplate]
  | cons c a ih =>
    have room : (escapedChar c a.head?).length ≤ (escapedChar c (a ++ b).head?).length := by
      cases a with
      | nil => exact escapedChar_length_le c _
      | cons d a => simp
    simp only [List.cons_append, escapeTemplate_cons, List.length_append]
    omega

theorem escapeTemplate_ne_nil {t : Text} (nonempty : t ≠ []) : escapeTemplate t ≠ [] := by
  cases t with
  | nil => exact absurd rfl nonempty
  | cons c t =>
    have room := escapedChar_length_pos c t.head?
    rw [escapeTemplate_cons]
    intro empty
    have length := congrArg List.length empty
    simp only [List.length_append, List.length_nil] at length
    omega

theorem escapedOffset_natCast (t : Text) (offset : Nat) :
    escapedOffset t offset = (escapeTemplate (t.take offset)).length := rfl

theorem escapedOffset_room (t : Text) {i j : Nat} (le : i ≤ j) :
    escapedOffset t i + (escapeTemplate ((t.take j).drop i)).length ≤ escapedOffset t j := by
  have cut : t.take j = t.take i ++ (t.take j).drop i := by
    have parts := List.take_append_drop i (t.take j)
    rw [List.take_take, Nat.min_eq_left le] at parts
    exact parts.symm
  have room := escapeTemplate_length_append (t.take i) ((t.take j).drop i)
  rwa [← cut] at room

theorem escapedOffset_mono (t : Text) {i j : Nat} (le : i ≤ j) :
    escapedOffset t i ≤ escapedOffset t j :=
  Nat.le_trans (Nat.le_add_right _ _) (escapedOffset_room t le)

theorem escapedOffset_strictMono {t : Text} {i j : Nat} (less : i < j) (within : j ≤ t.length) :
    escapedOffset t i < escapedOffset t j := by
  have between : (t.take j).drop i ≠ [] := by
    rw [Ne, List.drop_eq_nil_iff, List.length_take_of_le within]
    exact Nat.not_le_of_lt less
  have some := List.length_pos_iff.mpr (escapeTemplate_ne_nil between)
  have room := escapedOffset_room t (Nat.le_of_lt less)
  omega

theorem escapedOffset_append {a b : Text} : escapedOffset (a ++ b) a.length =
    (escapeTemplate a).length := by
  rw [escapedOffset_natCast, List.take_left]

end TemplateTypes
