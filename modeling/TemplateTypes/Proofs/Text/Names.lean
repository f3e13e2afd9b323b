import TemplateTypes.Source.Cursor
import TemplateTypes.Text.Letter
import Mathlib.Data.List.TakeWhile

namespace TemplateTypes.Text

def signs : Text :=
  ['(', ')', '{', '}', '[', ']', '<', '>', ':', ';', ',', '.', '=', '?', '!', '|', '&', singleQuote,
    doubleQuote, backtick]

def blankCodes : List Nat :=
  [9, 10, 11, 12, 13, 28, 29, 30, 31, 32, 0x85, 0xA0, 0x1680, 0x2000, 0x2001, 0x2002, 0x2003, 0x2004,
    0x2005, 0x2006, 0x2007, 0x2008, 0x2009, 0x200A, 0x2028, 0x2029, 0x202F, 0x205F, 0x3000]

theorem mem_blankCodes {c : Char} (blank : isBlank c = true) : c.toNat ∈ blankCodes := by
  simp only [isBlank, Bool.or_eq_true, Bool.and_eq_true, decide_eq_true_eq, beq_iff_eq] at blank
  simp only [blankCodes, List.mem_cons, List.not_mem_nil, or_false]
  omega

structure NamesOnly (p : Char → Bool) : Prop where
  solid : ∀ c, p c = true → isBlank c = false
  plain : ∀ c, p c = true → c ∉ signs

theorem namesOnly_of_all {p : Char → Bool}
    (none : (blankCodes.map Char.ofNat ++ signs).all (!p ·) = true) : NamesOnly p := by
  have outside : ∀ c ∈ blankCodes.map Char.ofNat ++ signs, p c = false := by
    intro c member
    exact Bool.not_eq_true' _ |>.mp (List.all_eq_true.mp none c member)
  constructor
  · intro c named
    by_contra blank
    have code := mem_blankCodes (by simpa using blank)
    have listed : c ∈ blankCodes.map Char.ofNat :=
      List.mem_map.mpr ⟨c.toNat, code, Char.ofNat_toNat c⟩
    rw [outside c (List.mem_append_left signs listed)] at named
    cases named
  · intro c named sign
    rw [outside c (List.mem_append_right _ sign)] at named
    cases named

theorem namesOnly_isNamePart : NamesOnly isNamePart := namesOnly_of_all (by decide +kernel)

/-- A character of a name in source text, which may be written with escapes. -/
def isSourceNamePart (c : Char) : Bool := Source.isWordChar c || c == '\\'

theorem namesOnly_isSourceNamePart : NamesOnly isSourceNamePart :=
  namesOnly_of_all (by decide +kernel)

theorem isNamePart_of_isNameStart {c : Char} (starts : isNameStart c = true) :
    isNamePart c = true := by
  simp only [isNameStart, isNamePart, isWord, isLetterOrNumber, Bool.or_eq_true, beq_iff_eq]
    at starts ⊢
  rcases starts with (letter | underscore) | dollar
  · have ascii : c.toNat < 128 := by
      rcases Bool.or_eq_true_iff.mp letter with upper | lower
      · have below := (of_decide_eq_true upper).2
        exact Nat.lt_of_le_of_lt below (by decide)
      · have below := of_decide_eq_true (Bool.and_eq_true_iff.mp lower).2
        exact Nat.lt_of_le_of_lt below (by decide)
    rw [if_pos ascii]
    simp [Char.isAlphanum, letter]
  · exact .inl (.inr underscore)
  · exact .inr dollar

def IsName (t : Text) : Prop := name? t = some (t, [])

instance (t : Text) : Decidable (IsName t) := inferInstanceAs (Decidable (_ = _))

theorem IsName.nonempty {t : Text} (named : IsName t) : t ≠ [] := by
  rintro rfl
  cases named

theorem IsName.all {t : Text} (named : IsName t) : ∀ c ∈ t, isNamePart c = true := by
  cases t with
  | nil => exact fun c member => absurd member List.not_mem_nil
  | cons first rest =>
    obtain ⟨starts, whole⟩ := Option.ite_none_right_eq_some.mp named
    have ends : rest.takeWhile isNamePart = rest := by
      simp only [Option.some.injEq, Prod.mk.injEq, List.cons.injEq, true_and] at whole
      exact whole.1
    intro c member
    rcases List.mem_cons.mp member with rfl | member
    · exact isNamePart_of_isNameStart starts
    · exact List.takeWhile_eq_self_iff.mp ends c member

theorem IsName.name?_append {name rest : Text} (named : IsName name)
    (ends : ∀ c ∈ rest.head?, isNamePart c = false) :
    Text.name? (name ++ rest) = some (name, rest) := by
  have parts := named.all
  cases name with
  | nil => cases named
  | cons first name =>
    obtain ⟨starts, _⟩ := Option.ite_none_right_eq_some.mp named
    have within := fun c member => parts c (List.mem_cons_of_mem first member)
    have none : rest.takeWhile isNamePart = [] ∧ rest.dropWhile isNamePart = rest := by
      cases rest with
      | nil => exact ⟨rfl, rfl⟩
      | cons c rest => simp [ends c rfl]
    rw [List.cons_append, Text.name?, if_pos starts, List.takeWhile_append_of_pos within,
      List.dropWhile_append_of_pos within, none.1, none.2, List.append_nil]

end TemplateTypes.Text

namespace TemplateTypes.Source

open Text

def IsIdentifier (t : Text) : Prop := wordAt? t = some t

instance (t : Text) : Decidable (IsIdentifier t) := inferInstanceAs (Decidable (_ = _))

theorem isSourceNamePart_of_mem_take (t : Text) :
    ∀ c ∈ t.take (wordLength t), isSourceNamePart c = true := by
  induction t with
  | nil => simp
  | cons first rest ih =>
    unfold wordLength
    split
    · rename_i within
      intro c member
      rcases List.mem_cons.mp member with rfl | member
      · simp [isSourceNamePart, within]
      · exact ih c member
    · split
      · rename_i escape
        intro c member
        rcases List.mem_cons.mp member with rfl | member
        · simp_all [isSourceNamePart]
        · exact ih c member
      · simp

theorem IsIdentifier.nonempty {t : Text} (named : IsIdentifier t) : t ≠ [] := by
  rintro rfl
  cases named

theorem IsIdentifier.all {t : Text} (named : IsIdentifier t) :
    ∀ c ∈ t, isSourceNamePart c = true := by
  cases t with
  | nil => exact fun c member => absurd member List.not_mem_nil
  | cons first rest =>
    obtain ⟨_, whole⟩ := Option.ite_none_right_eq_some.mp named
    intro c member
    rw [← Option.some.inj whole] at member
    exact isSourceNamePart_of_mem_take (first :: rest) c member

end TemplateTypes.Source
