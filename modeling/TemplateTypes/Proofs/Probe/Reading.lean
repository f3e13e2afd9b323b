import TemplateTypes.Probe.Anchor
import TemplateTypes.Proofs.Text.Names
import Mathlib.Data.List.Induction
import Mathlib.Data.List.TakeWhile

namespace TemplateTypes.Anchor

open Text

/-- What a backslash in a literal means: nothing, that a quote right behind it does not close the
    literal, or that the character behind it stands for itself. -/
inductive Reading
  | bare
  | guarded
  | escaping
  deriving DecidableEq

def Reading.escapes : Reading → (escaped : Bool) → (c : Char) → Bool
  | .bare, _, _ => false
  | .guarded, _, c => c == '\\'
  | .escaping, escaped, c => c == '\\' && !escaped

/-- The open brackets and the quote of the open literal, with whether the next character is
    escaped in it. -/
structure Place where
  depth : Int
  literal : Option (Char × Bool)
  deriving DecidableEq

namespace Place

def start : Place := ⟨0, none⟩

def next (r : Reading) (p : Place) (c : Char) : Place :=
  match p.literal with
  | some (quote, escaped) =>
    if c == quote && !escaped then ⟨p.depth, none⟩
    else ⟨p.depth, some (quote, r.escapes escaped c)⟩
  | none =>
    if quotes c then ⟨p.depth, some (c, false)⟩
    else if opens c then ⟨p.depth + 1, none⟩
    else if closes c then ⟨p.depth - 1, none⟩
    else p

def run (r : Reading) (p : Place) (t : Text) : Place := t.foldl (next r) p

def isTop (p : Place) : Bool := p.depth == 0 && p.literal.isNone

variable {r : Reading} {p : Place} {c : Char}

theorem run_cons (t : Text) : p.run r (c :: t) = (p.next r c).run r t := rfl

theorem run_append (t u : Text) : p.run r (t ++ u) = (p.run r t).run r u := List.foldl_append

theorem run_concat (t : Text) : p.run r (t ++ [c]) = (p.run r t).next r c := by
  rw [run_append]
  rfl

theorem next_quote (free : p.literal = none) (quote : quotes c = true) :
    p.next r c = ⟨p.depth, some (c, false)⟩ := by
  rw [next, free]
  simp [quote]

theorem next_opener (free : p.literal = none) (noQuote : quotes c = false)
    (opener : opens c = true) : p.next r c = ⟨p.depth + 1, none⟩ := by
  rw [next, free]
  simp [noQuote, opener]

theorem next_closer (free : p.literal = none) (noQuote : quotes c = false)
    (noOpener : opens c = false) (closer : closes c = true) :
    p.next r c = ⟨p.depth - 1, none⟩ := by
  rw [next, free]
  simp [noQuote, noOpener, closer]

theorem next_other (free : p.literal = none) (noQuote : quotes c = false)
    (noOpener : opens c = false) (noCloser : closes c = false) : p.next r c = p := by
  rw [next, free]
  simp [noQuote, noOpener, noCloser]

theorem isTop_iff : p.isTop = true ↔ p.depth = 0 ∧ p.literal = none := by
  simp [isTop]

end Place

def place (r : Reading) (t : Text) : Place := Place.start.run r t

def outside (r : Reading) (t : Text) : Bool := (place r t).isTop

theorem place_concat (r : Reading) (a : Text) (c : Char) :
    place r (a ++ [c]) = (place r a).next r c := Place.run_concat a

theorem place_append (r : Reading) (a t : Text) : place r (a ++ t) = (place r a).run r t :=
  Place.run_append a t

theorem literal_next {r : Reading} {p : Place} {c : Char} (free : p.literal = none)
    (noQuote : quotes c = false) : (p.next r c).literal = none := by
  rw [Place.next, free]
  simp only [noQuote, Bool.false_eq_true, if_false]
  repeat' split
  all_goals first | rfl | exact free

theorem literal_concat {r : Reading} {a : Text} {c quote : Char} {escaped : Bool}
    (within : (place r (a ++ [c])).literal = some (quote, escaped)) :
    ((place r a).literal = none ∧ c = quote ∧ quotes quote = true ∧ escaped = false) ∨
      ∃ before, (place r a).literal = some (quote, before) ∧ escaped = r.escapes before c := by
  rw [place_concat] at within
  cases literal : (place r a).literal with
  | some opened =>
    rw [Place.next, literal] at within
    simp only at within
    split at within
    · cases within
    · cases within
      exact .inr ⟨_, rfl, rfl⟩
  | none =>
    cases opening : quotes c with
    | true =>
      rw [Place.next_quote literal opening] at within
      cases within
      exact .inl ⟨rfl, rfl, opening, rfl⟩
    | false =>
      rw [literal_next literal opening] at within
      cases within

theorem quotes_of_literal {r : Reading} {a : Text} {quote : Char} {escaped : Bool}
    (within : (place r a).literal = some (quote, escaped)) : quotes quote = true := by
  induction a using List.reverseRecOn generalizing escaped with
  | nil => cases within
  | append_singleton a c ih =>
    rcases literal_concat within with ⟨_, _, quote, _⟩ | ⟨before, earlier, _⟩
    · exact quote
    · exact ih earlier

theorem escaped_of_guarded {a : Text} {quote : Char} {escaped : Bool}
    (within : (place .guarded a).literal = some (quote, escaped)) :
    escaped = (a.getLast? == some '\\') := by
  induction a using List.reverseRecOn with
  | nil => cases within
  | append_singleton a c _ =>
    rw [List.getLast?_concat]
    rcases literal_concat within with ⟨_, rfl, opening, rfl⟩ | ⟨_, _, rfl⟩
    · symm
      rw [beq_eq_false_iff_ne]
      rintro same
      rw [Option.some.inj same] at opening
      exact absurd opening (by decide)
    · rfl

theorem unescaped {r : Reading} {a : Text} {quote : Char} {escaped : Bool}
    (within : (place r a).literal = some (quote, escaped)) (last : a.getLast? ≠ some '\\') :
    escaped = false := by
  induction a using List.reverseRecOn with
  | nil => cases within
  | append_singleton a c _ =>
    have other : (c == '\\') = false := by
      rw [beq_eq_false_iff_ne]
      rintro rfl
      exact last List.getLast?_concat
    rcases literal_concat within with ⟨_, _, _, rfl⟩ | ⟨before, _, rfl⟩
    · rfl
    · cases r <;> simp [Reading.escapes, other]

def NameAt (r : Reading) (t : Text) (i : Nat) : Prop :=
  outside r (t.take i) = true ∧ freeBefore (t.take i).getLast? = true ∧
    ∃ c ∈ t[i]?, isNameStart c = true

def ParenAt (r : Reading) (t : Text) (i : Nat) : Prop :=
  outside r (t.take i) = true ∧ t[i]? = some '('

def PipeAt (r : Reading) (t : Text) (i : Nat) : Prop :=
  outside r (t.take i) = true ∧ t[i]? = some '|' ∧ (t.take i).getLast? ≠ some '|' ∧
    t[i + 1]? ≠ some '|'

def StopAt (r : Reading) (t : Text) (i : Nat) : Prop := ParenAt r t i ∨ PipeAt r t i

instance (r : Reading) (t : Text) (i : Nat) : Decidable (NameAt r t i) :=
  decidable_of_iff
    (outside r (t.take i) = true ∧ freeBefore (t.take i).getLast? = true ∧
      t[i]?.any isNameStart = true)
    (by rw [NameAt, Option.any_eq_true]; rfl)

instance (r : Reading) (t : Text) (i : Nat) : Decidable (ParenAt r t i) :=
  inferInstanceAs (Decidable (_ ∧ _))

instance (r : Reading) (t : Text) (i : Nat) : Decidable (PipeAt r t i) :=
  inferInstanceAs (Decidable (_ ∧ _ ∧ _ ∧ _))

section

variable {r : Reading} {t a rest : Text} {c : Char} {i : Nat}

theorem nameAt_iff : NameAt r (a ++ c :: rest) a.length ↔
    outside r a = true ∧ freeBefore a.getLast? = true ∧ isNameStart c = true := by
  simp [NameAt]

theorem exists_cut {j : Nat} (there : t[j]? = some c) :
    ∃ a rest, t = a ++ c :: rest ∧ a.length = j := by
  obtain ⟨within, rfl⟩ := List.getElem?_eq_some_iff.mp there
  refine ⟨t.take j, t.drop (j + 1), ?_, List.length_take_of_le (Nat.le_of_lt within)⟩
  rw [← List.drop_eq_getElem_cons within, List.take_append_drop]

theorem getElem?_behind : (a ++ c :: rest)[a.length + 1]? = rest.head? := by
  rw [List.getElem?_append_right (Nat.le_succ _), List.head?_eq_getElem?]
  simp

theorem stopAt_iff : StopAt r (a ++ c :: rest) a.length ↔
    outside r a = true ∧
      (c = '(' ∨ c = '|' ∧ a.getLast? ≠ some '|' ∧ rest.head? ≠ some '|') := by
  rw [StopAt, ParenAt, PipeAt, getElem?_behind]
  simp [← and_or_left]

theorem StopAt.sign (stop : StopAt r t i) : t[i]? = some '(' ∨ t[i]? = some '|' :=
  stop.imp (·.2) (·.2.1)

theorem StopAt.lt_length (stop : StopAt r t i) : i < t.length := by
  rcases stop.sign with sign | sign
  all_goals exact (List.getElem?_eq_some_iff.mp sign).1

theorem NameAt.not_stop {q : Reading} (named : NameAt r t i) : ¬ StopAt q t i := by
  obtain ⟨_, _, c, there, start⟩ := named
  intro stop
  rcases stop.sign with sign | sign
  all_goals
    cases there.symm.trans sign
    exact absurd start (by decide)

theorem NameAt.lt_length (named : NameAt r t i) : i < t.length := by
  obtain ⟨_, _, c, there, _⟩ := named
  exact (List.getElem?_eq_some_iff.mp there).1

end

def surface (r : Reading) (p : Place) : Text → Text
  | [] => []
  | c :: t => if p.isTop then c :: surface r (p.next r c) t else surface r (p.next r c) t

theorem surface_append (r : Reading) (p : Place) (t u : Text) :
    surface r p (t ++ u) = surface r p t ++ surface r (p.run r t) u := by
  induction t generalizing p with
  | nil => rfl
  | cons c t ih =>
    rw [List.cons_append, surface, surface, ih, Place.run_cons]
    split <;> rfl

theorem mem_surface_iff {r : Reading} {p : Place} {t : Text} {c : Char} :
    c ∈ surface r p t ↔ ∃ i, (p.run r (t.take i)).isTop = true ∧ t[i]? = some c := by
  induction t generalizing p with
  | nil => simp [surface]
  | cons d t ih =>
    have later : c ∈ surface r (p.next r d) t ↔
        ∃ i, (p.run r ((d :: t).take (i + 1))).isTop = true ∧ (d :: t)[i + 1]? = some c := ih
    have here : (p.isTop = true ∧ c = d) ↔
        (p.run r ((d :: t).take 0)).isTop = true ∧ (d :: t)[0]? = some c := by
      rw [List.getElem?_cons_zero, Option.some.injEq]
      exact and_congr_right fun _ => eq_comm
    rw [← Nat.or_exists_add_one, ← here, ← later, surface]
    split
    · rename_i top
      rw [List.mem_cons]
      exact or_congr_left (and_iff_right top).symm
    · rename_i within
      exact (or_iff_right fun shown => within shown.1).symm

/-- No bracket is closed that the text does not open, and all are closed at the end, as are its
    literals. -/
def Closed (t : Text) : Prop :=
  outside .escaping t = true ∧ ∀ i ≤ t.length, 0 ≤ (place .escaping (t.take i)).depth

instance (t : Text) : Decidable (Closed t) := inferInstanceAs (Decidable (_ ∧ _))

namespace Place

theorem next_deeper (r : Reading) (p : Place) (k : Int) (c : Char) :
    next r ⟨p.depth + k, p.literal⟩ c = ⟨(p.next r c).depth + k, (p.next r c).literal⟩ := by
  obtain ⟨depth, literal⟩ := p
  unfold next
  repeat' split
  all_goals simp_all
  all_goals omega

theorem run_deeper (r : Reading) (p : Place) (k : Int) (t : Text) :
    run r ⟨p.depth + k, p.literal⟩ t = ⟨(p.run r t).depth + k, (p.run r t).literal⟩ := by
  induction t generalizing p with
  | nil => rfl
  | cons c t ih => rw [run_cons, run_cons, next_deeper, ih]

end Place

theorem Closed.surface_eq {t : Text} (closed : Closed t) : surface .escaping ⟨1, none⟩ t = [] := by
  refine List.eq_nil_iff_forall_not_mem.mpr fun c shown => ?_
  obtain ⟨i, top, there⟩ := mem_surface_iff.mp shown
  have within : i ≤ t.length := Nat.le_of_lt (List.getElem?_eq_some_iff.mp there).1
  have deeper := Place.run_deeper .escaping Place.start 1 (t.take i)
  have shallow := (Place.isTop_iff.mp top).1
  have depth := closed.2 i within
  rw [show (⟨1, none⟩ : Place) = ⟨Place.start.depth + 1, Place.start.literal⟩ from rfl, deeper]
    at shallow
  rw [place] at depth
  simp only at shallow
  omega

theorem Closed.run_eq {t : Text} (closed : Closed t) :
    Place.run .escaping ⟨1, none⟩ t = ⟨1, none⟩ := by
  obtain ⟨shallow, free⟩ := Place.isTop_iff.mp closed.1
  have deeper := Place.run_deeper .escaping Place.start 1 t
  rw [← place, shallow, free] at deeper
  exact deeper

section

variable {r : Reading} {a u rest : Text}

theorem flat_of_not_mem_signs {c : Char} (plain : c ∉ signs) :
    quotes c = false ∧ opens c = false ∧ closes c = false := by
  simp only [signs, List.mem_cons, List.not_mem_nil, or_false, not_or] at plain
  simp [quotes, opens, closes, plain]

theorem flat_of_isNamePart {c : Char} (part : isNamePart c = true) :
    quotes c = false ∧ opens c = false ∧ closes c = false :=
  flat_of_not_mem_signs (namesOnly_isNamePart.plain c part)

theorem run_nameParts {p : Place} (free : p.literal = none)
    (parts : ∀ d ∈ u, isNamePart d = true) : p.run r u = p := by
  induction u with
  | nil => rfl
  | cons d u ih =>
    obtain ⟨noQuote, noOpener, noCloser⟩ := flat_of_isNamePart (parts d List.mem_cons_self)
    rw [Place.run_cons, Place.next_other free noQuote noOpener noCloser]
    exact ih fun e member => parts e (List.mem_cons_of_mem d member)

theorem place_behind_nameParts (free : (place r a).literal = none)
    (parts : ∀ d ∈ u, isNamePart d = true) : place r (a ++ u) = place r a := by
  rw [place_append]
  exact run_nameParts free parts

theorem isNamePart_of_mem_name {c : Char} (start : isNameStart c = true) (t : Text) :
    ∀ d ∈ c :: t.takeWhile isNamePart, isNamePart d = true := by
  intro d member
  rcases List.mem_cons.mp member with rfl | member
  · exact isNamePart_of_isNameStart start
  · exact List.mem_takeWhile_imp member

theorem freeBefore_some (c : Char) : freeBefore (some c) = !isNamePart c := rfl

theorem freeBefore_of_blank {c : Char} (blank : isBlank c = true) : freeBefore (some c) = true := by
  rw [freeBefore_some, Bool.not_eq_true']
  by_contra part
  rw [namesOnly_isNamePart.solid c (by simpa using part)] at blank
  cases blank

theorem not_nameAt_within
    (none : ∀ v d w, u = v ++ d :: w → ¬ (outside r (a ++ v) = true ∧
      freeBefore (a ++ v).getLast? = true ∧ isNameStart d = true))
    (i : Nat) (lower : a.length ≤ i) (upper : i < a.length + u.length) :
    ¬ NameAt r (a ++ (u ++ rest)) i := by
  obtain ⟨j, rfl⟩ := Nat.exists_eq_add_of_le lower
  obtain ⟨d, there⟩ : ∃ d, u[j]? = some d :=
    ⟨_, List.getElem?_eq_getElem (Nat.lt_of_add_lt_add_left upper)⟩
  obtain ⟨v, w, rfl, rfl⟩ := exists_cut there
  rw [List.append_assoc, List.cons_append, ← List.append_assoc, ← List.length_append, nameAt_iff]
  exact none _ _ _ rfl

theorem not_nameAt_of_nameParts {c : Char} (parts : ∀ d ∈ c :: u, isNamePart d = true)
    (i : Nat) (lower : a.length < i) (upper : i < a.length + (c :: u).length) :
    ¬ NameAt r (a ++ (c :: u ++ rest)) i := by
  have shifted : a ++ (c :: u ++ rest) = (a ++ [c]) ++ (u ++ rest) := by simp
  rw [shifted]
  rw [List.length_cons] at upper
  refine not_nameAt_within ?_ i (by simp; omega) (by simp; omega)
  rintro v d w cut ⟨_, freeStart, _⟩
  obtain ⟨e, last⟩ : ∃ e, (c :: v).getLast? = some e := ⟨_, List.getLast?_cons⟩
  have part : isNamePart e = true := by
    have member : e ∈ c :: v := List.mem_of_getLast? last
    apply parts e
    rw [cut, ← List.cons_append]
    exact List.mem_append_left _ member
  have whole : (a ++ [c] ++ v).getLast? = some e := by
    rw [List.append_assoc, List.singleton_append, List.getLast?_append, last]
    rfl
  rw [whole, freeBefore_some, part] at freeStart
  cases freeStart

end

end TemplateTypes.Anchor
