import TemplateTypes.Proofs.Probe.Escape
import TemplateTypes.Proofs.Probe.Anchor
import Mathlib.Data.List.Infix

namespace TemplateTypes

open Text

def escapeBefore : Text → (behind : Option Char) → Text
  | [], _ => []
  | c :: a, behind => escapedChar c (a.head?.or behind) ++ escapeBefore a behind

theorem escapeTemplate_cut (a t : Text) :
    escapeTemplate (a ++ t) = escapeBefore a t.head? ++ escapeTemplate t := by
  induction a with
  | nil => rfl
  | cons c a ih =>
    rw [List.cons_append, escapeTemplate_cons, ih, escapeBefore, List.head?_append,
      List.append_assoc]

theorem escapeBefore_concat (a : Text) (c : Char) (behind : Option Char) :
    escapeBefore (a ++ [c]) behind = escapeBefore a (some c) ++ escapedChar c behind := by
  induction a with
  | nil => simp [escapeBefore]
  | cons d a ih =>
    rw [List.cons_append, escapeBefore, ih, escapeBefore, List.append_assoc, List.head?_append]
    cases a <;> rfl

theorem escapeBefore_eq {a : Text} {c : Char} (noBrace : c ≠ '\x7b') :
    escapeBefore a (some c) = escapeTemplate a := by
  have whole := escapeTemplate_append (a := a) (b := [c]) (by simp [noBrace])
  rw [escapeTemplate_cut] at whole
  exact List.append_cancel_right whole

theorem escapedChar_eq (c : Char) (behind : Option Char) :
    escapedChar c behind = if isEscapedBefore c behind then ['\\'] ++ [c] else [c] := rfl

theorem getLast?_escapeBefore (a : Text) (behind : Option Char) :
    (escapeBefore a behind).getLast? = a.getLast? := by
  induction a using List.reverseRecOn with
  | nil => rfl
  | append_singleton a c _ =>
    rw [escapeBefore_concat, escapedChar_eq, List.getLast?_concat]
    split <;> simp

theorem head?_escapeTemplate_bar (t : Text) :
    (escapeTemplate t).head? = some '|' ↔ t.head? = some '|' := by
  cases t with
  | nil => rfl
  | cons c t =>
    rw [escapeTemplate_cons, escapedChar_eq]
    split
    · rename_i escaped
      constructor
      · intro slash
        cases slash
      · intro bar
        cases bar
        have plain : isEscapedBefore '|' t.head? = false := rfl
        rw [plain] at escaped
        cases escaped
    · rfl

theorem getElem?_escapedChar {c d : Char} {behind : Option Char} {i : Nat}
    (there : (escapedChar c behind)[i]? = some d) (other : d ≠ '\\') :
    d = c ∧ i + 1 = (escapedChar c behind).length := by
  have within := (List.getElem?_eq_some_iff.mp there).1
  rw [escapedChar] at there within ⊢
  split
  · rename_i escaped
    rw [if_pos escaped] at there within
    cases i with
    | zero => exact absurd (Option.some.inj there).symm other
    | succ i =>
      obtain rfl : i = 0 := Nat.lt_one_iff.mp (Nat.lt_of_succ_lt_succ within)
      exact ⟨(Option.some.inj there).symm, rfl⟩
  · rename_i plain
    rw [if_neg plain] at there within
    obtain rfl : i = 0 := Nat.lt_one_iff.mp within
    exact ⟨(Option.some.inj there).symm, rfl⟩

theorem exists_source {e : Text} {i : Nat} {d : Char} (there : (escapeTemplate e)[i]? = some d)
    (other : d ≠ '\\') :
    ∃ a rest, e = a ++ d :: rest ∧
      i + 1 = (escapeBefore a (some d)).length + (escapedChar d rest.head?).length := by
  induction e generalizing i with
  | nil => cases there
  | cons c e ih =>
    rw [escapeTemplate_cons] at there
    rcases Nat.lt_or_ge i (escapedChar c e.head?).length with within | behind
    · rw [List.getElem?_append_left within] at there
      have last := getElem?_escapedChar there other
      obtain ⟨rfl, ends⟩ := last
      exact ⟨[], e, rfl, by rw [ends]; simp [escapeBefore]⟩
    · rw [List.getElem?_append_right behind] at there
      obtain ⟨a, rest, rfl, ends⟩ := ih there
      refine ⟨c :: a, rest, rfl, ?_⟩
      rw [List.head?_append, List.head?_cons] at behind ends
      rw [escapeBefore, List.length_append]
      omega

namespace Anchor

theorem Place.next_slash_outside (r : Reading) {p : Place} (free : p.literal = none) :
    p.next r '\\' = p :=
  next_other free (by decide) (by decide) (by decide)

theorem Place.next_slash_within (r : Reading) {p : Place} {quote : Char} {escaped : Bool}
    (within : p.literal = some (quote, escaped)) (mark : quotes quote = true) :
    p.next r '\\' = ⟨p.depth, some (quote, r.escapes escaped '\\')⟩ := by
  have other : ('\\' == quote) = false := by
    rw [beq_eq_false_iff_ne]
    rintro rfl
    exact absurd mark (by decide)
  simp [next, within, other]

theorem bare_never_escaped {a : Text} {quote : Char} {escaped : Bool}
    (within : (place .bare a).literal = some (quote, escaped)) : escaped = false := by
  induction a using List.reverseRecOn with
  | nil => cases within
  | append_singleton a c _ =>
    rcases literal_concat within with ⟨_, _, _, rfl⟩ | ⟨_, _, rfl⟩ <;> rfl

theorem next_bare_slash (a : Text) : (place .bare a).next .bare '\\' = place .bare a := by
  cases literal : (place .bare a).literal with
  | none => exact Place.next_slash_outside .bare literal
  | some opened =>
    obtain ⟨quote, escaped⟩ := opened
    have plain := bare_never_escaped literal
    rw [Place.next_slash_within .bare literal (quotes_of_literal literal), Reading.escapes, ← plain,
      ← literal]

theorem place_bare_escapeBefore (a : Text) (behind : Option Char) :
    place .bare (escapeBefore a behind) = place .bare a := by
  induction a using List.reverseRecOn generalizing behind with
  | nil => rfl
  | append_singleton a c ih =>
    rw [escapeBefore_concat, escapedChar_eq, place_append, ih, place_concat]
    split
    · rw [Place.run_concat, Place.run_cons, next_bare_slash]
      rfl
    · rfl

def Templated (a : Text) : Prop :=
  ∃ b, b <+: a ∧ (place .guarded b).literal.map Prod.fst = some backtick

instance (a : Text) : Decidable (Templated a) :=
  decidable_of_iff (∃ b ∈ a.inits, (place .guarded b).literal.map Prod.fst = some backtick)
    (by simp only [Templated, List.mem_inits])

theorem Templated.mono {a b : Text} (templated : Templated a) (starts : a <+: b) : Templated b := by
  obtain ⟨inner, front, within⟩ := templated
  exact ⟨inner, front.trans starts, within⟩

theorem escaped_cases {c : Char} {behind : Option Char}
    (escaped : isEscapedBefore c behind = true) :
    c = '\\' ∨ c = backtick ∨ c = '$' ∧ behind = some '\x7b' := by
  simp only [isEscapedBefore, Bool.or_eq_true, Bool.and_eq_true, beq_iff_eq] at escaped
  tauto

theorem run_guarded_escapedChar {a : Text} {c : Char} (behind : Option Char)
    (plain : (place .guarded a).literal.map Prod.fst ≠ some backtick) :
    (place .guarded a).run .guarded (escapedChar c behind) =
      (place .guarded a).next .guarded c := by
  rw [escapedChar_eq]
  split
  · rename_i escaped
    rw [Place.run_concat, Place.run_cons]
    cases literal : (place .guarded a).literal with
    | none =>
      rw [Place.next_slash_outside .guarded literal]
      rfl
    | some opened =>
      obtain ⟨quote, before⟩ := opened
      have mark := quotes_of_literal literal
      have other : c ≠ quote := by
        rintro rfl
        rw [literal] at plain
        rcases escaped_cases escaped with rfl | rfl | ⟨rfl, _⟩
        · exact absurd mark (by decide)
        · exact plain rfl
        · exact absurd mark (by decide)
      rw [Place.next_slash_within .guarded literal mark]
      simp [Place.next, Place.run, literal, other, Reading.escapes]
  · rfl

theorem place_guarded_escapeBefore {a : Text} (plain : ¬ Templated a) (behind : Option Char) :
    place .guarded (escapeBefore a behind) = place .guarded a := by
  induction a using List.reverseRecOn generalizing behind with
  | nil => rfl
  | append_singleton a c ih =>
    have before : ¬ Templated a := fun templated =>
      plain (templated.mono (List.prefix_append a [c]))
    have here : (place .guarded a).literal.map Prod.fst ≠ some backtick := fun within =>
      before ⟨a, List.prefix_rfl, within⟩
    rw [escapeBefore_concat, place_append, ih before, run_guarded_escapedChar behind here,
      place_concat]

theorem run_within_template {p : Place} {escaped : Bool}
    (within : p.literal = some (backtick, escaped)) (c : Char) (behind : Option Char) :
    ∃ escaped, (p.run .guarded (escapedChar c behind)).literal = some (backtick, escaped) := by
  rw [escapedChar_eq]
  split
  · rw [Place.run_concat, Place.run_cons, Place.next_slash_within .guarded within (by decide)]
    simp [Place.next, Place.run, Reading.escapes]
  · rename_i plain
    have other : c ≠ backtick := by
      rintro rfl
      exact plain rfl
    simp [Place.next, Place.run, within, other]

theorem run_opens_template {p : Place} (free : p.literal = none) (behind : Option Char) :
    (p.run .guarded (escapedChar backtick behind)).literal = some (backtick, false) := by
  have pair : escapedChar backtick behind = ['\\', backtick] := rfl
  rw [pair, Place.run_cons, Place.next_slash_outside .guarded free, Place.run_cons,
    Place.next_quote free (by decide)]
  rfl

theorem literal_of_templated {a : Text} (templated : Templated a) (behind : Option Char) :
    ∃ escaped, (place .guarded (escapeBefore a behind)).literal = some (backtick, escaped) := by
  induction a using List.reverseRecOn generalizing behind with
  | nil =>
    obtain ⟨b, front, within⟩ := templated
    rw [List.prefix_nil.mp front] at within
    cases within
  | append_singleton a c ih =>
    rw [escapeBefore_concat, place_append]
    by_cases earlier : Templated a
    · obtain ⟨before, literal⟩ := ih earlier (some c)
      exact run_within_template literal c behind
    · obtain ⟨b, front, within⟩ := templated
      rcases List.prefix_concat_iff.mp front with rfl | front
      · obtain ⟨⟨quote, escaped⟩, literal, mark⟩ := Option.map_eq_some_iff.mp within
        obtain rfl : quote = backtick := mark
        rcases literal_concat literal with ⟨free, rfl, _, _⟩ | ⟨before, literal, _⟩
        · rw [place_guarded_escapeBefore earlier]
          exact ⟨false, run_opens_template free behind⟩
        · exact absurd ⟨a, List.prefix_rfl, by rw [literal]; rfl⟩ earlier
      · exact absurd ⟨b, front, within⟩ earlier

theorem escapeTemplate_cons_cut (a : Text) (c : Char) (rest : Text) :
    escapeTemplate (a ++ c :: rest) =
      escapeBefore a (some c) ++ (escapedChar c rest.head? ++ escapeTemplate rest) := by
  rw [escapeTemplate_cut, escapeTemplate_cons]
  rfl

theorem escapedOffset_length {a rest : Text} {c : Char} (noBrace : c ≠ '\x7b') :
    escapedOffset (a ++ c :: rest) a.length = (escapeBefore a (some c)).length := by
  rw [escapedOffset_append, escapeBefore_eq noBrace]

theorem stopAt_escapeTemplate {a rest : Text} {c : Char}
    (plain : isEscapedBefore c rest.head? = false) :
    StopAt .guarded (escapeTemplate (a ++ c :: rest)) (escapeBefore a (some c)).length ↔
      outside .guarded (escapeBefore a (some c)) = true ∧
        (c = '(' ∨ c = '|' ∧ a.getLast? ≠ some '|' ∧ rest.head? ≠ some '|') := by
  have alone : escapedChar c rest.head? = [c] := by
    rw [escapedChar, plain]
    rfl
  rw [escapeTemplate_cons_cut, alone, List.singleton_append, stopAt_iff, getLast?_escapeBefore,
    Ne, Ne, Ne, head?_escapeTemplate_bar]

theorem StopAt.plain {r : Reading} {t : Text} {i : Nat} (stop : StopAt r t i) :
    ∃ c, t[i]? = some c ∧ c ≠ '\\' ∧ c ≠ '\x7b' ∧ ∀ behind, isEscapedBefore c behind = false := by
  rcases stop.sign with sign | sign
  · exact ⟨'(', sign, by decide, by decide, fun _ => rfl⟩
  · exact ⟨'|', sign, by decide, by decide, fun _ => rfl⟩

theorem stop_source {e : Text} {i : Nat} (stop : StopAt .guarded (escapeTemplate e) i) :
    ∃ j < e.length, i = escapedOffset e j ∧ ¬ Templated (e.take j) ∧ StopAt .guarded e j := by
  obtain ⟨d, there, noSlash, noBrace, plain⟩ := stop.plain
  obtain ⟨a, rest, rfl, ends⟩ := exists_source there noSlash
  have place : i = (escapeBefore a (some d)).length := by
    rw [escapedChar, plain] at ends
    exact Nat.succ.inj ends
  rw [place, stopAt_escapeTemplate (plain _)] at stop
  obtain ⟨top, stop⟩ := stop
  have untemplated : ¬ Templated a := by
    intro templated
    obtain ⟨escaped, literal⟩ := literal_of_templated templated (some d)
    have free := (Place.isTop_iff.mp top).2
    rw [literal] at free
    cases free
  refine ⟨a.length, by simp, by rw [place, escapedOffset_length noBrace], ?_, ?_⟩
  · rwa [List.take_left]
  · rw [outside, place_guarded_escapeBefore untemplated] at top
    exact stopAt_iff.mpr ⟨top, stop⟩

theorem stop_image {e : Text} {j : Nat} (stop : StopAt .guarded e j)
    (untemplated : ¬ Templated (e.take j)) :
    StopAt .guarded (escapeTemplate e) (escapedOffset e j) := by
  obtain ⟨c, there, _, noBrace, plain⟩ := stop.plain
  obtain ⟨a, rest, rfl, rfl⟩ := exists_cut there
  rw [List.take_left] at untemplated
  rw [escapedOffset_length noBrace, stopAt_escapeTemplate (plain _), outside,
    place_guarded_escapeBefore untemplated]
  exact stopAt_iff.mp stop

/-- How far the search for names goes: an escaped template literal hides every stop behind it. -/
def reach (e : Text) : Nat := if Templated (e.take (limit e)) then e.length else limit e

theorem reach_le_length (e : Text) : reach e ≤ e.length := by
  unfold reach
  split
  · exact Nat.le_refl _
  · exact (limit_firstStop e).upper

theorem limit_le_reach (e : Text) : limit e ≤ reach e := by
  unfold reach
  split
  · exact (limit_firstStop e).upper
  · exact Nat.le_refl _

theorem untemplated_of_short {e : Text} (short : reach e < e.length) :
    ¬ Templated (e.take (limit e)) ∧ reach e = limit e := by
  unfold reach at short ⊢
  split at short
  · exact absurd short (Nat.lt_irrefl _)
  · rename_i untemplated
    exact ⟨untemplated, if_neg untemplated⟩

theorem limit_escapeTemplate (e : Text) : limit (escapeTemplate e) = escapedOffset e (reach e) := by
  have stops := limit_firstStop e
  have whole : escapedOffset e e.length = (escapeTemplate e).length := by
    rw [escapedOffset_natCast, List.take_length]
  have upper := reach_le_length e
  refine (limit_firstStop (escapeTemplate e)).unique ⟨Nat.zero_le _, ?_, ?_, ?_⟩
  · rw [← whole]
    exact escapedOffset_mono e upper
  · rintro i _ below stop
    obtain ⟨j, within, rfl, untemplated, stop⟩ := stop_source stop
    have before : j < reach e := by
      by_contra reached
      exact absurd below (Nat.not_lt_of_le (escapedOffset_mono e (Nat.le_of_not_lt reached)))
    have reached : limit e ≤ j := by
      by_contra below
      exact stops.before j (Nat.zero_le j) (Nat.lt_of_not_le below) stop
    unfold reach at before
    split at before
    · rename_i templated
      exact untemplated (templated.mono (List.take_prefix_take_left reached))
    · exact absurd before (Nat.not_lt_of_le reached)
  · intro more
    have short : reach e < e.length := by
      by_contra long
      rw [Nat.le_antisymm upper (Nat.le_of_not_lt long), whole] at more
      exact absurd more (Nat.lt_irrefl _)
    obtain ⟨untemplated, same⟩ := untemplated_of_short short
    rw [same] at short ⊢
    exact stop_image (stops.ends short) untemplated

section

variable {a rest : Text} {c : Char}

theorem nameAt_of_plain (plain : isEscapedBefore c rest.head? = false) :
    NameAt .bare (escapeTemplate (a ++ c :: rest)) (escapeBefore a (some c)).length ↔
      NameAt .bare (a ++ c :: rest) a.length := by
  have alone : escapedChar c rest.head? = [c] := by
    rw [escapedChar, plain]
    rfl
  rw [escapeTemplate_cons_cut, alone, List.singleton_append, nameAt_iff, nameAt_iff, outside,
    place_bare_escapeBefore, getLast?_escapeBefore, outside]

theorem nameAt_of_dollar (brace : rest.head? = some '\x7b') :
    NameAt .bare (escapeTemplate (a ++ '$' :: rest)) ((escapeBefore a (some '$')).length + 1) ↔
      outside .bare a = true := by
  have pair : escapedChar '$' rest.head? = ['\\', '$'] := by
    rw [brace]
    rfl
  have front : place .bare (escapeBefore a (some '$') ++ ['\\']) = place .bare a := by
    rw [place_concat, place_bare_escapeBefore, next_bare_slash]
  have length : (escapeBefore a (some '$')).length + 1 =
      (escapeBefore a (some '$') ++ ['\\']).length := by
    rw [List.length_append, List.length_singleton]
  rw [escapeTemplate_cons_cut, pair, List.cons_append, List.append_cons, length,
    List.singleton_append, nameAt_iff, outside, front, List.getLast?_concat, outside]
  exact and_iff_left (by decide)

theorem escapedOffset_behind_dollar :
    escapedOffset (a ++ '$' :: rest) (a.length + 1 : Nat) =
      (escapeBefore a (some '$')).length + 1 := by
  have front : (a ++ '$' :: rest).take (a.length + 1) = a ++ ['$'] := by
    rw [List.append_cons, ← List.length_singleton (a := '$'), ← List.length_append, List.take_left]
  rw [escapedOffset_natCast, front, escapeTemplate_cut, List.length_append]
  rfl

end

/-- A `$` outside brackets and literals that a brace follows: escaped, it is a name of its own. -/
def DollarAt (e : Text) (i : Nat) : Prop :=
  outside .bare (e.take i) = true ∧ e[i]? = some '$' ∧ e[i + 1]? = some '\x7b'

theorem dollarAt_iff {a rest : Text} {c : Char} : DollarAt (a ++ c :: rest) a.length ↔
    outside .bare a = true ∧ c = '$' ∧ rest.head? = some '\x7b' := by
  rw [DollarAt, getElem?_behind]
  simp

section

variable {e : Text} {r : Reading} {i j : Nat}

theorem dollar_of_escaped {c : Char} {behind : Option Char} (start : isNameStart c = true)
    (escaped : isEscapedBefore c behind = true) : c = '$' ∧ behind = some '\x7b' := by
  rcases escaped_cases escaped with rfl | rfl | dollar
  · exact absurd start (by decide)
  · exact absurd start (by decide)
  · exact dollar

theorem name_source (named : NameAt .bare (escapeTemplate e) i) :
    ∃ j < e.length, i = escapedOffset e j ∧ NameAt .bare e j ∨
      i = escapedOffset e (j + 1 : Nat) ∧ DollarAt e j := by
  obtain ⟨_, _, c, there, start⟩ := id named
  have noSlash : c ≠ '\\' := by
    rintro rfl
    exact absurd start (by decide)
  have noBrace : c ≠ '\x7b' := by
    rintro rfl
    exact absurd start (by decide)
  obtain ⟨a, rest, rfl, ends⟩ := exists_source there noSlash
  refine ⟨a.length, by simp, ?_⟩
  cases escaped : isEscapedBefore c rest.head? with
  | false =>
    obtain rfl : i = (escapeBefore a (some c)).length := by
      rw [escapedChar, escaped] at ends
      exact Nat.succ.inj ends
    exact .inl ⟨(escapedOffset_length noBrace).symm, (nameAt_of_plain escaped).mp named⟩
  | true =>
    obtain ⟨rfl, brace⟩ := dollar_of_escaped start escaped
    obtain rfl : i = (escapeBefore a (some '$')).length + 1 := by
      rw [escapedChar, escaped] at ends
      exact Nat.succ.inj ends
    exact .inr ⟨escapedOffset_behind_dollar.symm,
      dollarAt_iff.mpr ⟨(nameAt_of_dollar brace).mp named, rfl, brace⟩⟩

theorem name_image (named : NameAt .bare e j) (other : ¬ DollarAt e j) :
    NameAt .bare (escapeTemplate e) (escapedOffset e j) := by
  obtain ⟨top, _, c, there, start⟩ := id named
  have noBrace : c ≠ '\x7b' := by
    rintro rfl
    exact absurd start (by decide)
  obtain ⟨a, rest, rfl, rfl⟩ := exists_cut there
  rw [List.take_left] at top
  have plain : isEscapedBefore c rest.head? = false := by
    rw [Bool.eq_false_iff]
    intro escaped
    exact other (dollarAt_iff.mpr ⟨top, dollar_of_escaped start escaped⟩)
  rw [escapedOffset_length noBrace]
  exact (nameAt_of_plain plain).mpr named

theorem dollar_image (dollar : DollarAt e j) :
    NameAt .bare (escapeTemplate e) (escapedOffset e (j + 1 : Nat)) := by
  obtain ⟨a, rest, rfl, rfl⟩ := exists_cut dollar.2.1
  obtain ⟨top, _, brace⟩ := dollarAt_iff.mp dollar
  rw [escapedOffset_behind_dollar]
  exact (nameAt_of_dollar brace).mpr top

theorem DollarAt.next_lt_reach (dollar : DollarAt e i) (below : i < reach e) : i + 1 < reach e := by
  obtain ⟨_, _, brace⟩ := dollar
  have within := (List.getElem?_eq_some_iff.mp brace).1
  refine Nat.lt_of_le_of_ne below fun same => ?_
  rw [same] at within brace
  have stop : StopAt .guarded e (reach e) := by
    have short := within
    rw [(untemplated_of_short within).2] at short ⊢
    exact (limit_firstStop e).ends short
  obtain ⟨c, there, _, noBrace, _⟩ := stop.plain
  exact noBrace (Option.some.inj (there.symm.trans brace))

theorem settlesOn_image
    (quiet : ∀ i < reach e,
      (limit e ≤ i → ¬ NameAt .bare e i) ∧ (hoverAnchor e ≤ i → ¬ DollarAt e i)) :
    SettlesOn (escapeTemplate e) 0 (limit (escapeTemplate e)) 0
      (escapedOffset e (hoverAnchor e)) := by
  rw [limit_escapeTemplate]
  have sources : ∀ k < escapedOffset e (reach e), NameAt .bare (escapeTemplate e) k →
      (∃ j < limit e, k = escapedOffset e j ∧ NameAt .bare e j) ∨
        ∃ j < hoverAnchor e, k = escapedOffset e (j + 1 : Nat) := by
    intro k below image
    obtain ⟨j, _, ⟨rfl, named⟩ | ⟨rfl, dollar⟩⟩ := name_source image
    · have under : j < reach e := by
        by_contra reached
        exact absurd below (Nat.not_lt_of_le (escapedOffset_mono e (Nat.le_of_not_lt reached)))
      refine .inl ⟨j, ?_, rfl, named⟩
      by_contra behind
      exact (quiet j under).1 (Nat.le_of_not_lt behind) named
    · have under : j < reach e := by
        by_contra reached
        have le := Nat.le_succ_of_le (Nat.le_of_not_lt reached)
        exact absurd below (Nat.not_lt_of_le (escapedOffset_mono e le))
      refine .inr ⟨j, ?_, rfl⟩
      by_contra behind
      exact (quiet j under).2 (Nat.le_of_not_lt behind) dollar
  rcases hoverAnchor_settlesOn e with ⟨zero, absent⟩ | ⟨_, below, named, silent⟩
  · rw [zero] at sources ⊢
    refine .inl ⟨rfl, fun k _ below image => ?_⟩
    rcases sources k below image with ⟨j, under, _, named⟩ | ⟨j, none, _⟩
    · exact absent j (Nat.zero_le j) under named
    · cases none
  · have under : hoverAnchor e < reach e := Nat.lt_of_lt_of_le below (limit_le_reach e)
    refine .inr ⟨Nat.zero_le _, escapedOffset_strictMono under (reach_le_length e),
      name_image named ((quiet _ under).2 (Nat.le_refl _)), fun k later below image => ?_⟩
    rcases sources k below image with ⟨j, under, rfl, named⟩ | ⟨j, before, rfl⟩
    · have behind : hoverAnchor e < j := by
        by_contra before
        exact absurd later (Nat.not_lt_of_le (escapedOffset_mono e (Nat.le_of_not_lt before)))
      exact silent j behind under named
    · exact absurd later (Nat.not_lt_of_le (escapedOffset_mono e before))

/-- A name that the search comes to in the escaped text, past the image of the anchor, takes the
    anchor off it. -/
theorem anchor_image_ne {k : Nat} (behind : hoverAnchor e < k) (below : k < reach e)
    (named : NameAt .bare (escapeTemplate e) (escapedOffset e k)) :
    hoverAnchor (escapeTemplate e) ≠ escapedOffset e (hoverAnchor e) := by
  intro same
  have within := reach_le_length e
  have later := escapedOffset_strictMono behind (Nat.le_trans (Nat.le_of_lt below) within)
  have under := escapedOffset_strictMono below within
  rw [← limit_escapeTemplate] at under
  rcases hoverAnchor_settlesOn (escapeTemplate e) with ⟨_, absent⟩ | ⟨_, _, _, silent⟩
  · exact absent _ (Nat.zero_le _) under named
  · rw [same] at silent
    exact silent _ later under named

theorem anchor_lt_of_name (named : NameAt r e i) (reached : limit e ≤ i) : hoverAnchor e < i := by
  have stop := (limit_firstStop e).ends (Nat.lt_of_le_of_lt reached named.lt_length)
  have apart : limit e ≠ i := by
    rintro rfl
    exact named.not_stop stop
  rcases hoverAnchor_settlesOn e with ⟨zero, _⟩ | ⟨_, below, _⟩
  · omega
  · omega

end

end Anchor

open Anchor

/-- The anchor of the escaped expression is the image of the expression's anchor exactly when the
    search finds nothing more in the escaped text: no name behind the stop, which an open template
    literal hides there, and no `$` before a brace behind the anchor. -/
theorem hoverAnchor_escapeTemplate_iff (e : Text) :
    hoverAnchor (escapeTemplate e) = escapedOffset e (hoverAnchor e) ↔
      ∀ i < reach e, (limit e ≤ i → ¬ NameAt .bare e i) ∧ (hoverAnchor e ≤ i → ¬ DollarAt e i) := by
  constructor
  · intro same i below
    have noDollar : hoverAnchor e ≤ i → ¬ DollarAt e i := fun behind dollar =>
      anchor_image_ne (Nat.lt_succ_of_le behind) (dollar.next_lt_reach below) (dollar_image dollar)
        same
    refine ⟨fun reached named => ?_, noDollar⟩
    have behind := anchor_lt_of_name named reached
    exact anchor_image_ne behind below (name_image named (noDollar (Nat.le_of_lt behind))) same
  · intro quiet
    exact (hoverAnchor_settlesOn (escapeTemplate e)).unique (settlesOn_image quiet)

/-- A template literal keeps the search from stopping at the pipe behind it, and a `$` before a
    brace becomes a name. -/
theorem hoverAnchor_escapeTemplate_moves :
    (Closed "`a` + b | c".toList ∧ hoverAnchor "`a` + b | c".toList = 6 ∧
      escapedOffset "`a` + b | c".toList 6 = 8 ∧
      hoverAnchor (escapeTemplate "`a` + b | c".toList) = 12) ∧
    Closed "a$\x7bb\x7d".toList ∧ hoverAnchor "a$\x7bb\x7d".toList = 0 ∧
      escapedOffset "a$\x7bb\x7d".toList 0 = 0 ∧
      hoverAnchor (escapeTemplate "a$\x7bb\x7d".toList) = 2 := by
  decide +kernel

end TemplateTypes
