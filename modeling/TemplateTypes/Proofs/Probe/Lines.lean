import TemplateTypes.Proofs.Text.LineEnds
import TemplateTypes.Proofs.Text.Pieces
import Mathlib.Algebra.GroupWithZero.Nat

namespace TemplateTypes

open Text

namespace Text

variable {separator : Char}

theorem length_pieces (separator : Char) (t : Text) :
    (pieces separator t).length = t.count separator + 1 := by
  induction t with
  | nil => rfl
  | cons c t ih =>
    by_cases same : c = separator
    · simp [pieces, same, ih]
    · unfold pieces
      rw [if_neg (by simpa using same), List.count_cons_of_ne same, ← ih]
      cases cut : pieces separator t with
      | nil => exact absurd cut (pieces_ne_nil separator t)
      | cons piece more => rfl

theorem sum_length_pieces (separator : Char) (t : Text) :
    ((pieces separator t).map (·.length + 1)).sum = t.length + 1 := by
  induction t with
  | nil => rfl
  | cons c t ih =>
    by_cases same : c = separator
    · simp [pieces, same, ih]
      omega
    · unfold pieces
      rw [if_neg (by simpa using same)]
      cases cut : pieces separator t with
      | nil => exact absurd cut (pieces_ne_nil separator t)
      | cons piece more =>
        rw [cut] at ih
        simp only [List.map_cons, List.sum_cons, List.length_cons] at ih ⊢
        omega

end Text

namespace Position

/-- How many characters stand in front of a line, the ends of the lines above it included. -/
def lineStart (t : Text) (line : Nat) : Nat := (((pieces '\n' t).take line).map (·.length + 1)).sum

def IsOn (p : Position) (t : Text) : Prop :=
  ∃ line, (pieces '\n' t)[p.line]? = some line ∧ 0 ≤ p.column ∧ p.column ≤ line.length

/-- A position on the lines of a text with so many characters of the text in front of it. -/
def Denotes (p : Position) (t : Text) (offset : Nat) : Prop :=
  p.IsOn t ∧ (offset : Int) = lineStart t p.line + p.column

def Precedes (p q : Position) : Prop := p.line < q.line ∨ p.line = q.line ∧ p.column < q.column

variable {t : Text} {p q : Position} {offset other : Nat}

theorem lineStart_succ {n : Nat} {line : Text} (there : (pieces '\n' t)[n]? = some line) :
    lineStart t (n + 1) = lineStart t n + line.length + 1 := by
  rw [lineStart, List.take_add_one, there]
  simp [lineStart, Nat.add_assoc]

theorem lineStart_mono {m n : Nat} (le : m ≤ n) : lineStart t m ≤ lineStart t n := by
  obtain ⟨gap, rfl⟩ := Nat.exists_eq_add_of_le le
  rw [lineStart, lineStart, List.take_add, List.map_append, List.sum_append]
  exact Nat.le_add_right _ _

theorem lineStart_le (t : Text) (n : Nat) : lineStart t n ≤ t.length + 1 := by
  have whole := sum_length_pieces '\n' t
  rw [← List.take_append_drop n (pieces '\n' t), List.map_append, List.sum_append] at whole
  rw [← whole]
  exact Nat.le_add_right _ _

theorem Denotes.le_length (denotes : p.Denotes t offset) : offset ≤ t.length := by
  obtain ⟨⟨line, there, _, fits⟩, place⟩ := denotes
  have next := lineStart_succ there
  have bound := lineStart_le t (p.line + 1)
  omega

theorem Denotes.lt_of_precedes (one : p.Denotes t offset) (later : q.Denotes t other)
    (precedes : p.Precedes q) : offset < other := by
  obtain ⟨⟨line, there, _, fits⟩, place⟩ := one
  obtain ⟨⟨_, _, positive, _⟩, placeLater⟩ := later
  rcases precedes with above | ⟨same, left⟩
  · have next := lineStart_succ there
    have order : lineStart t (p.line + 1) ≤ lineStart t q.line := lineStart_mono above
    omega
  · rw [same] at place
    omega

theorem precedes_trichotomy (p q : Position) : p.Precedes q ∨ p = q ∨ q.Precedes p := by
  obtain ⟨line, column⟩ := p
  obtain ⟨line', column'⟩ := q
  simp only [Precedes, mk.injEq]
  omega

theorem Denotes.unique (one : p.Denotes t offset) (second : q.Denotes t offset) : p = q := by
  rcases precedes_trichotomy p q with before | same | behind
  · exact absurd (one.lt_of_precedes second before) (Nat.lt_irrefl offset)
  · exact same
  · exact absurd (second.lt_of_precedes one behind) (Nat.lt_irrefl offset)

theorem Denotes.lt_iff (one : p.Denotes t offset) (second : q.Denotes t other) :
    offset < other ↔ p.Precedes q := by
  refine ⟨fun less => ?_, one.lt_of_precedes second⟩
  rcases precedes_trichotomy p q with before | rfl | behind
  · exact before
  · have place := one.2.trans second.2.symm
    omega
  · have greater := second.lt_of_precedes one behind
    omega

theorem denotes_ofOffset (inside : offset ≤ t.length) : (ofOffset t offset).Denotes t offset := by
  have long : (t.take offset).length = offset := List.length_take_of_le inside
  have line : (ofOffset t offset).line = (t.take offset).count '\n' := rfl
  have column := ofOffset_column inside
  have free := newline_notMem_lastLine (t.take offset)
  obtain ⟨piece, more, rest⟩ := List.exists_cons_of_ne_nil (pieces_ne_nil '\n' (t.drop offset))
  have own := pieces_append free rest
  have parts := List.take_append_drop offset t
  obtain ⟨lines, before, empty | ended⟩ := exists_lines_append_lastLine (t.take offset)
  · rw [empty, List.nil_append] at before
    rw [← before] at own free column
    rw [parts] at own
    have first : (ofOffset t offset).line = 0 := line.trans (List.count_eq_zero.mpr free)
    refine ⟨⟨t.take offset ++ piece, ?_, ?_⟩, ?_⟩
    · rw [first, own]
      rfl
    · rw [column, List.length_append]
      omega
    · rw [column, long, first]
      simp [lineStart]
  · obtain ⟨above, rfl⟩ := List.getLast?_eq_some_iff.mp ended
    generalize lastLine (t.take offset) = last at before own free column
    rw [List.append_assoc, List.singleton_append] at before
    have feeds : (ofOffset t offset).line = (pieces '\n' above).length := by
      rw [line, before, List.count_append, List.count_cons_self, List.count_eq_zero.mpr free,
        length_pieces]
    have cut : pieces '\n' t = pieces '\n' above ++ (last ++ piece) :: more := by
      rw [← own, ← pieces_append_cons, ← List.cons_append, ← List.append_assoc, ← before, parts]
    have start : lineStart t (ofOffset t offset).line = above.length + 1 := by
      rw [lineStart, feeds, cut, List.take_left, sum_length_pieces]
    refine ⟨⟨last ++ piece, ?_, ?_⟩, ?_⟩
    · rw [feeds, cut, List.getElem?_append_right le_rfl, Nat.sub_self]
      rfl
    · rw [column, List.length_append]
      omega
    · rw [start, column, ← long, before]
      simp
      omega

theorem ofOffset_inj (one : offset ≤ t.length) (second : other ≤ t.length) :
    ofOffset t offset = ofOffset t other ↔ offset = other := by
  refine ⟨fun same => ?_, fun same => by rw [same]⟩
  have place := (denotes_ofOffset one).2
  rw [same] at place
  have placeOther := (denotes_ofOffset second).2
  omega

/-- The offsets up to the end of a text and the positions on its lines are the same in their order:
    the position of an offset is the one that denotes it, each position is that of an offset, and a
    later offset has a later position. No two offsets share one, and only the first is at the
    origin. -/
theorem ofOffset_isomorphism (t : Text) :
    (∀ offset ≤ t.length, ∀ p : Position, p.Denotes t offset ↔ p = ofOffset t offset) ∧
      (∀ p : Position, p.IsOn t → ∃ offset ≤ t.length, ofOffset t offset = p) ∧
      ∀ offset ≤ t.length, ∀ other ≤ t.length,
        (offset < other ↔ (ofOffset t offset).Precedes (ofOffset t other)) ∧
          (ofOffset t offset = ofOffset t other → offset = other) ∧
          (ofOffset t offset = .origin → offset = 0) := by
  refine ⟨fun offset inside p => ?_, fun p isOn => ?_, fun offset inside other within => ?_⟩
  · have denotes := denotes_ofOffset inside
    constructor
    · exact fun also => also.unique denotes
    · rintro rfl
      exact denotes
  · obtain ⟨line, there, positive, fits⟩ := isOn
    have denotes : p.Denotes t (lineStart t p.line + p.column.toNat) :=
      ⟨⟨line, there, positive, fits⟩, by omega⟩
    exact ⟨_, denotes.le_length, (denotes_ofOffset denotes.le_length).unique denotes⟩
  · refine ⟨(denotes_ofOffset inside).lt_iff (denotes_ofOffset within),
      (ofOffset_inj inside within).mp, fun unknown => ?_⟩
    have start : ofOffset t (0 : Nat) = .origin := rfl
    exact (ofOffset_inj inside (Nat.zero_le _)).mp (unknown.trans start.symm)

/-- An offset on an empty line, and the end of a text behind its last line end. -/
theorem ofOffset_isomorphism_empty_line :
    let t := "a\n\nbc\n".toList
    2 ≤ t.length ∧ 6 ≤ t.length ∧ (∀ p : Position, p.Denotes t 2 ↔ p = ⟨1, 0⟩) ∧
      (∃ offset ≤ t.length, ofOffset t offset = ⟨2, 2⟩) ∧
      (⟨1, 0⟩ : Position).Precedes ⟨3, 0⟩ := by
  intro t
  have inside : 2 ≤ t.length := by decide
  have ending : 6 ≤ t.length := by decide
  have first : ofOffset t (2 : Nat) = ⟨1, 0⟩ := by decide
  have last : ofOffset t (6 : Nat) = ⟨3, 0⟩ := by decide
  have isOn : (⟨2, 2⟩ : Position).IsOn t := ⟨"bc".toList, by decide, by decide, by decide⟩
  obtain ⟨denoted, reached, ordered⟩ := ofOffset_isomorphism t
  have order := (ordered 2 inside 6 ending).1.mp (by decide)
  rw [first, last] at order
  exact ⟨inside, ending, fun p => first ▸ denoted 2 inside p, reached _ isOn, order⟩

end Position

end TemplateTypes
