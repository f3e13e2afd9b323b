import TemplateTypes.Proofs.Probe.Reading

namespace TemplateTypes

open Text

namespace Anchor

/-- From an offset on, the text's first parenthesis or single bar outside brackets and literals, or
    its end. -/
structure FirstStop (t : Text) (first n : Nat) : Prop where
  lower : first ≤ n
  upper : n ≤ t.length
  before : ∀ i, first ≤ i → i < n → ¬ StopAt .guarded t i
  ends : n < t.length → StopAt .guarded t n

theorem FirstStop.extend {t : Text} {first n : Nat} (later : FirstStop t (first + 1) n)
    (passed : ¬ StopAt .guarded t first) : FirstStop t first n := by
  refine ⟨Nat.le_of_succ_le later.lower, later.upper, fun i lower below => ?_, later.ends⟩
  rcases Nat.eq_or_lt_of_le lower with rfl | behind
  · exact passed
  · exact later.before i behind below

theorem FirstStop.unique {t : Text} {first n m : Nat} (left : FirstStop t first n)
    (right : FirstStop t first m) : n = m := by
  rcases Nat.lt_trichotomy n m with less | same | more
  · have stop := left.ends (by have := right.upper; omega)
    exact absurd stop (right.before n left.lower less)
  · exact same
  · have stop := right.ends (by have := left.upper; omega)
    exact absurd stop (left.before m right.lower more)

namespace State

def next (s : State) (index : Nat) (c : Char) : State :=
  match s.quote with
  | some quote =>
    { s with quote := if c == quote && s.last != some '\\' then none else some quote,
             last := some c }
  | none =>
    if quotes c then { s with quote := some c, last := some c }
    else if opens c then
      { s with depth := s.depth + 1, last := some c,
               call := if c == '(' && s.depth == 0 && s.call.isNone then some index else s.call }
    else if closes c then { s with depth := s.depth - 1, last := some c }
    else { s with last := some c }

def ends (s : State) (c : Char) (behind : Option Char) : Bool :=
  s.quote.isNone && c == '|' && s.depth == 0 && behind != some '|' && s.last != some '|'

end State

theorem limitFrom_cons (s : State) (index : Nat) (c : Char) (rest : Text) :
    limitFrom s index (c :: rest) =
      if s.ends c rest.head? then s.call.getD index
      else limitFrom (s.next index c) (index + 1) rest := by
  have facts : quotes '|' = false ∧ opens '|' = false ∧ closes '|' = false := by decide
  cases quote : s.quote with
  | some mark => simp [limitFrom, State.ends, State.next, quote]
  | none =>
    by_cases bar : c = '|'
    · subst bar
      simp [limitFrom, State.ends, State.next, quote, facts]
    · have other : s.ends c rest.head? = false := by simp [State.ends, bar]
      rw [other, limitFrom, State.next, quote]
      cases opening : quotes c <;> cases opener : opens c <;> cases closer : closes c <;> simp [bar]

structure State.Behind (s : State) (a : Text) : Prop where
  depth : s.depth = (place .guarded a).depth
  quote : s.quote = (place .guarded a).literal.map Prod.fst
  last : s.last = a.getLast?

namespace State

variable {s : State} {a : Text} {c : Char}

theorem next_call {k : Nat} (call : s.call = some k) (index : Nat) :
    (s.next index c).call = some k := by
  have taken : s.call.isNone = false := by simp [call]
  unfold next
  rw [taken]
  repeat' split
  all_goals simp_all

theorem next_call_of_none (noCall : s.call = none) (index : Nat) :
    (s.next index c).call =
      if s.quote = none ∧ s.depth = 0 ∧ c = '(' then some index else none := by
  have facts : quotes '(' = false ∧ opens '(' = true := by decide
  by_cases paren : c = '('
  · subst paren
    cases quote : s.quote <;> simp [next, quote, noCall, facts]
  · unfold next
    repeat' split
    all_goals simp_all

theorem Behind.next (behind : s.Behind a) (index : Nat) : (s.next index c).Behind (a ++ [c]) := by
  have depth := behind.depth
  have quote := behind.quote
  have last : (s.next index c).last = some c := by
    unfold State.next
    repeat' split
    all_goals rfl
  cases literal : (place .guarded a).literal with
  | some opened =>
    obtain ⟨mark, escaped⟩ := opened
    have held := escaped_of_guarded literal
    rw [← behind.last] at held
    have quote : s.quote = some mark := by rw [behind.quote, literal]; rfl
    have same : (c == mark && s.last != some '\\') = (c == mark && !escaped) := by rw [held]; rfl
    refine ⟨?_, ?_, by rw [last, List.getLast?_concat]⟩
    all_goals
      rw [place_concat, Place.next, literal, State.next, quote]
      simp only [same]
      split <;> simp [behind.depth]
  | none =>
    have quote : s.quote = none := by rw [behind.quote, literal]; rfl
    refine ⟨?_, ?_, by rw [last, List.getLast?_concat]⟩
    all_goals
      rw [place_concat, Place.next, literal, State.next, quote]
      repeat' split
      all_goals simp_all [behind.depth]

theorem Behind.stopAt_iff (behind : s.Behind a) (rest : Text) :
    StopAt .guarded (a ++ c :: rest) a.length ↔
      s.ends c rest.head? = true ∨ s.quote = none ∧ s.depth = 0 ∧ c = '(' := by
  have top : outside .guarded a = true ↔ s.quote = none ∧ s.depth = 0 := by
    simp [outside, Place.isTop, behind.depth, behind.quote, and_comm]
  rw [Anchor.stopAt_iff, top, ← behind.last]
  simp only [ends, Bool.and_eq_true, Option.isNone_iff_eq_none, beq_iff_eq, bne_iff_ne, ne_eq]
  tauto

end State

theorem limitFrom_of_call {s : State} {k : Nat} (call : s.call = some k) (index : Nat) (t : Text) :
    limitFrom s index t = k := by
  induction t generalizing s index with
  | nil => simp [limitFrom, call]
  | cons c t ih =>
    rw [limitFrom_cons, ih (State.next_call call index), call]
    simp

theorem limitFrom_firstStop {s : State} {a : Text} (rest : Text) (behind : s.Behind a)
    (noCall : s.call = none) : FirstStop (a ++ rest) a.length (limitFrom s a.length rest) := by
  induction rest generalizing s a with
  | nil =>
    rw [limitFrom, noCall, List.append_nil]
    exact ⟨Nat.le_refl _, Nat.le_refl _, fun i lower below => absurd below (Nat.not_lt_of_le lower),
      fun more => absurd more (Nat.lt_irrefl _)⟩
  | cons c rest ih =>
    have stops : StopAt .guarded (a ++ c :: rest) a.length →
        FirstStop (a ++ c :: rest) a.length a.length := fun stop =>
      ⟨Nat.le_refl _, by simp, fun i lower below => absurd below (Nat.not_lt_of_le lower),
        fun _ => stop⟩
    rw [limitFrom_cons]
    split
    · rename_i ends
      rw [noCall]
      exact stops ((behind.stopAt_iff rest).mpr (.inl ends))
    · rename_i goesOn
      have call := State.next_call_of_none (c := c) noCall a.length
      split at call
      · rename_i paren
        rw [limitFrom_of_call call]
        exact stops ((behind.stopAt_iff rest).mpr (.inr paren))
      · rename_i noParen
        have later := ih (behind.next (c := c) a.length) call
        rw [List.append_assoc, List.length_append] at later
        apply later.extend
        rw [List.singleton_append, behind.stopAt_iff]
        exact not_or.mpr ⟨goesOn, noParen⟩

theorem limit_firstStop (e : Text) : FirstStop e 0 (limit e) :=
  limitFrom_firstStop (a := []) e ⟨rfl, rfl, rfl⟩ rfl

/-- The last name that begins at `first` or behind it and before `limit`, and `found` if none
    does. -/
def SettlesOn (t : Text) (first limit found n : Nat) : Prop :=
  (n = found ∧ ∀ i, first ≤ i → i < limit → ¬ NameAt .bare t i) ∨
    (first ≤ n ∧ n < limit ∧ NameAt .bare t n ∧ ∀ i, n < i → i < limit → ¬ NameAt .bare t i)

section

variable {t a u rest : Text} {first middle limit found n : Nat}

theorem SettlesOn.extend (later : SettlesOn t middle limit found n) (le : first ≤ middle)
    (none : ∀ i, first ≤ i → i < middle → ¬ NameAt .bare t i) :
    SettlesOn t first limit found n := by
  rcases later with ⟨rfl, absent⟩ | ⟨lower, rest⟩
  · refine .inl ⟨rfl, fun i lower below => ?_⟩
    rcases Nat.lt_or_ge i middle with before | behind
    · exact none i lower before
    · exact absent i behind below
  · exact .inr ⟨Nat.le_trans le lower, rest⟩

theorem SettlesOn.named (later : SettlesOn t middle limit first n) (below : first < limit)
    (lt : first < middle) (named : NameAt .bare t first)
    (none : ∀ i, first < i → i < middle → ¬ NameAt .bare t i) :
    SettlesOn t first limit found n := by
  rcases later with ⟨rfl, absent⟩ | ⟨lower, rest⟩
  · refine .inr ⟨Nat.le_refl _, below, named, fun i behind under => ?_⟩
    rcases Nat.lt_or_ge i middle with before | past
    · exact none i behind before
    · exact absent i past under
  · exact .inr ⟨Nat.le_trans (Nat.le_of_lt lt) lower, rest⟩

theorem SettlesOn.behind (later : SettlesOn (a ++ u ++ rest) (a ++ u).length limit found n)
    (silent : ∀ i, a.length ≤ i → i < a.length + u.length → ¬ NameAt .bare (a ++ (u ++ rest)) i) :
    SettlesOn (a ++ (u ++ rest)) a.length limit found n := by
  rw [List.append_assoc, List.length_append] at later
  exact later.extend (Nat.le_add_right _ _) silent

theorem SettlesOn.unique {m : Nat} (left : SettlesOn t first limit found n)
    (right : SettlesOn t first limit found m) : n = m := by
  rcases left with ⟨rfl, absent⟩ | ⟨lower, below, named, silent⟩
  · rcases right with ⟨rfl, _⟩ | ⟨lower, below, named, _⟩
    · rfl
    · exact absurd named (absent m lower below)
  · rcases right with ⟨_, absent⟩ | ⟨_, under, other, quiet⟩
    · exact absurd named (absent n lower below)
    · rcases Nat.lt_trichotomy n m with before | same | behind
      · exact absurd other (silent m before under)
      · exact same
      · exact absurd named (quiet n behind below)

theorem run_literal {depth : Int} {quote : Char} (others : ∀ d ∈ u, d ≠ quote) :
    Place.run .bare ⟨depth, some (quote, false)⟩ u = ⟨depth, some (quote, false)⟩ := by
  induction u with
  | nil => rfl
  | cons d u ih =>
    have other := others d List.mem_cons_self
    have step : Place.next .bare ⟨depth, some (quote, false)⟩ d = ⟨depth, some (quote, false)⟩ := by
      simp [Place.next, Reading.escapes, other]
    rw [Place.run_cons, step]
    exact ih fun e member => others e (List.mem_cons_of_mem d member)

theorem not_isNameStart_of_isSign :
    ∀ c, quotes c = true ∨ opens c = true ∨ closes c = true → isNameStart c = false := by
  intro c sign
  simp only [quotes, opens, closes, Bool.or_eq_true, beq_iff_eq] at sign
  rcases sign with ((rfl | rfl) | rfl) | ((rfl | rfl) | rfl) | (rfl | rfl) | rfl <;> decide

theorem not_nameAt_of_literal {c : Char} (free : (place .bare a).literal = none)
    (quote : quotes c = true) (others : ∀ d ∈ u.dropLast, d ≠ c) (i : Nat) (lower : a.length ≤ i)
    (upper : i < a.length + (c :: u).length) : ¬ NameAt .bare (a ++ (c :: u ++ rest)) i := by
  refine not_nameAt_within ?_ i lower upper
  rintro v d w cut ⟨top, _, starts⟩
  cases v with
  | nil =>
    obtain ⟨rfl, _⟩ := List.cons.inj cut
    rw [not_isNameStart_of_isSign c (.inl quote)] at starts
    cases starts
  | cons e v =>
    obtain ⟨rfl, tail⟩ := List.cons.inj cut
    have before : ∀ e ∈ v, e ≠ c := by
      intro e member
      apply others
      rw [tail, List.append_eq, List.dropLast_append_of_ne_nil (List.cons_ne_nil d w)]
      exact List.mem_append_left _ member
    have within : place .bare (a ++ c :: v) = ⟨(place .bare a).depth, some (c, false)⟩ := by
      rw [place_append, Place.run_cons, Place.next_quote free quote]
      exact run_literal before
    simp [outside, within, Place.isTop] at top

theorem place_behind_literal {c : Char} (free : (place .bare a).literal = none)
    (quote : quotes c = true) (others : ∀ d ∈ u, d ≠ c) :
    place .bare (a ++ c :: (u ++ [c])) = place .bare a := by
  rw [place_append, Place.run_cons, Place.next_quote free quote, Place.run_concat,
    run_literal others, Place.next]
  simp only [beq_self_eq_true, Bool.not_false, Bool.and_self, if_true, ← free]

def searchFrom (limit : Nat) (a : Text) (found : Nat) (rest : Text) : Nat :=
  lastNameFrom limit 0 a.length a.getLast? (place .bare a).depth found rest

theorem lastNameFrom_skip (limit : Nat) (u rest : Text) (index : Nat) (last : Option Char)
    (depth : Int) (found : Nat) :
    lastNameFrom limit u.length index last depth found (u ++ rest) =
      lastNameFrom limit 0 (index + u.length) (u.getLast?.or last) depth found rest := by
  induction u generalizing index last with
  | nil => rfl
  | cons c u ih =>
    rw [List.cons_append, List.length_cons, lastNameFrom, ih]
    congr 1
    · omega
    · cases u with
      | nil => rfl
      | cons d u =>
        rw [List.getLast?_cons_cons, List.getLast?_cons]
        rfl

theorem lastNameFrom_jump {c : Char} (same : place .bare (a ++ c :: u) = place .bare a) :
    lastNameFrom limit u.length (a.length + 1) (some c) (place .bare a).depth found (u ++ rest) =
      searchFrom limit (a ++ c :: u) found rest := by
  have last : (a ++ c :: u).getLast? = u.getLast?.or (some c) := by
    rw [List.getLast?_append, List.getLast?_cons]
    cases u.getLast? <;> rfl
  have length : (a ++ c :: u).length = a.length + 1 + u.length := by
    rw [List.length_append, List.length_cons]
    omega
  rw [lastNameFrom_skip, searchFrom, same, last, length]

section Step

variable {c : Char} (below : a.length < limit)

include below

theorem searchFrom_literal (quote : quotes c = true) (others : ∀ d ∈ u, d ≠ c)
    (free : (place .bare a).literal = none) :
    searchFrom limit a found (c :: (u ++ c :: rest)) =
      searchFrom limit (a ++ c :: (u ++ [c])) found rest := by
  have closed : (u ++ c :: rest).elem c = true := List.elem_iff.mpr (by simp)
  have taken : (u ++ c :: rest).takeWhile (· != c) = u := by
    rw [List.takeWhile_append_of_pos (by simpa using others)]
    simp
  have length : u.length + 1 = (u ++ [c]).length := by simp
  rw [searchFrom, lastNameFrom, if_neg (Nat.not_le_of_lt below), if_pos quote, if_pos closed, taken,
    length, ← lastNameFrom_jump (place_behind_literal free quote others), List.append_assoc,
    List.singleton_append]

theorem searchFrom_unclosed (quote : quotes c = true) (others : ∀ d ∈ rest, d ≠ c) :
    searchFrom limit a found (c :: rest) = found := by
  have unclosed : ¬ rest.elem c = true := fun closed =>
    others c (List.elem_iff.mp closed) rfl
  rw [searchFrom, lastNameFrom, if_neg (Nat.not_le_of_lt below), if_pos quote, if_neg unclosed]

theorem searchFrom_name (start : isNameStart c = true) (top : outside .bare a = true)
    (freeStart : freeBefore a.getLast? = true) :
    searchFrom limit a found (c :: rest) =
      searchFrom limit (a ++ c :: rest.takeWhile isNamePart) a.length
        (rest.dropWhile isNamePart) := by
  obtain ⟨shallow, free⟩ := Place.isTop_iff.mp top
  obtain ⟨noQuote, noOpener, noCloser⟩ := flat_of_isNamePart (isNamePart_of_isNameStart start)
  have same := place_behind_nameParts free (isNamePart_of_mem_name start rest)
  have cut := List.takeWhile_append_dropWhile (p := isNamePart) (l := rest)
  have named : (decide ((place .bare a).depth = 0) && isNameStart c &&
      freeBefore a.getLast?) = true := by
    simp [shallow, start, freeStart]
  rw [← lastNameFrom_jump same, cut, searchFrom, lastNameFrom, if_neg (Nat.not_le_of_lt below)]
  simp only [noQuote, noOpener, noCloser, named, if_true, if_false, Bool.false_eq_true]

theorem searchFrom_other (free : (place .bare a).literal = none) (noQuote : quotes c = false)
    (noName : ¬ (outside .bare a = true ∧ freeBefore a.getLast? = true ∧ isNameStart c = true)) :
    searchFrom limit a found (c :: rest) = searchFrom limit (a ++ [c]) found rest := by
  have unnamed : ¬ (decide ((place .bare a).depth = 0) && isNameStart c &&
      freeBefore a.getLast?) = true := by
    intro named
    simp only [Bool.and_eq_true, decide_eq_true_eq] at named
    exact noName ⟨Place.isTop_iff.mpr ⟨named.1.1, free⟩, named.2, named.1.2⟩
  rw [searchFrom, searchFrom, lastNameFrom, if_neg (Nat.not_le_of_lt below), place_concat,
    List.length_append, List.getLast?_concat]
  cases opener : opens c with
  | true => simp [noQuote, Place.next_opener free noQuote opener]
  | false =>
    cases closer : closes c with
    | true => simp [noQuote, Place.next_closer free noQuote opener closer]
    | false =>
      rw [Place.next_other free noQuote opener closer]
      simp only [noQuote, if_neg unnamed, Bool.false_eq_true, if_false]
      rfl

end Step

/-- The search that has come behind `a` settles on the last name of the rest. -/
def Settles (limit : Nat) (a : Text) (found : Nat) (rest : Text) : Prop :=
  SettlesOn (a ++ rest) a.length limit found (searchFrom limit a found rest)

section Settles

variable {c : Char} (below : a.length < limit)

include below

theorem settles_unclosed (free : (place .bare a).literal = none) (quote : quotes c = true)
    (others : ∀ d ∈ rest, d ≠ c) : Settles limit a found (c :: rest) := by
  have silent : ∀ i, a.length ≤ i → i < a.length + (c :: rest).length →
      ¬ NameAt .bare (a ++ (c :: rest ++ [])) i :=
    not_nameAt_of_literal free quote fun d member => others d (List.dropLast_subset rest member)
  rw [List.append_nil] at silent
  rw [Settles, searchFrom_unclosed below quote others]
  refine .inl ⟨rfl, fun i lower _ named => silent i lower ?_ named⟩
  rw [← List.length_append]
  exact named.lt_length

theorem Settles.literal (later : Settles limit (a ++ c :: (u ++ [c])) found rest)
    (free : (place .bare a).literal = none) (quote : quotes c = true)
    (others : ∀ d ∈ u, d ≠ c) : Settles limit a found (c :: (u ++ c :: rest)) := by
  rw [Settles, searchFrom_literal below quote others free, List.append_cons u, ← List.cons_append]
  refine SettlesOn.behind later (not_nameAt_of_literal free quote ?_)
  rwa [List.dropLast_concat]

theorem Settles.name
    (later : Settles limit (a ++ c :: rest.takeWhile isNamePart) a.length
      (rest.dropWhile isNamePart))
    (start : isNameStart c = true) (top : outside .bare a = true)
    (freeStart : freeBefore a.getLast? = true) : Settles limit a found (c :: rest) := by
  have cut : a ++ c :: rest =
      a ++ (c :: rest.takeWhile isNamePart ++ rest.dropWhile isNamePart) := by
    rw [List.cons_append, List.takeWhile_append_dropWhile]
  rw [Settles, searchFrom_name below start top freeStart]
  rw [Settles, List.append_assoc, ← cut, List.length_append] at later
  refine later.named below (Nat.lt_add_of_pos_right (by simp))
    (nameAt_iff.mpr ⟨top, freeStart, start⟩) fun i lower upper => ?_
  rw [cut]
  exact not_nameAt_of_nameParts (isNamePart_of_mem_name start rest) i lower upper

theorem Settles.other (later : Settles limit (a ++ [c]) found rest)
    (free : (place .bare a).literal = none) (noQuote : quotes c = false)
    (noName : ¬ (outside .bare a = true ∧ freeBefore a.getLast? = true ∧ isNameStart c = true)) :
    Settles limit a found (c :: rest) := by
  rw [Settles, searchFrom_other below free noQuote noName]
  refine SettlesOn.behind later fun i lower upper => ?_
  obtain rfl : i = a.length := by
    rw [List.length_singleton] at upper
    omega
  rwa [List.singleton_append, nameAt_iff]

end Settles

/-- A literal and a name are left behind in one step, so the induction is on what is still to
    come. -/
theorem settles (limit : Nat) (rest : Text) (free : (place .bare a).literal = none) (found : Nat) :
    Settles limit a found rest := by
  induction length : rest.length using Nat.strongRecOn generalizing a rest found with
  | ind n ih =>
    cases rest with
    | nil =>
      rw [Settles, List.append_nil]
      exact .inl ⟨rfl, fun i lower _ named => absurd named.lt_length (Nat.not_lt_of_le lower)⟩
    | cons c rest =>
      rw [List.length_cons] at length
      rcases Nat.lt_or_ge a.length limit with below | reached
      · by_cases quote : quotes c = true
        · by_cases closed : c ∈ rest
          · obtain ⟨u, more, rfl, before⟩ := List.eq_append_cons_of_mem closed
            have others : ∀ d ∈ u, d ≠ c := fun d member same => before (same ▸ member)
            have behind := place_behind_literal free quote others
            have shorter : more.length < n := by
              rw [List.length_append, List.length_cons] at length
              omega
            exact (ih _ shorter more (by rwa [behind]) found rfl).literal below free quote others
          · exact settles_unclosed below free quote fun d member same => closed (same ▸ member)
        · have noQuote := Bool.eq_false_iff.mpr quote
          by_cases name : outside .bare a = true ∧ freeBefore a.getLast? = true ∧
              isNameStart c = true
          · obtain ⟨top, freeStart, start⟩ := name
            have behind := place_behind_nameParts free (isNamePart_of_mem_name start rest)
            have shorter : (rest.dropWhile isNamePart).length < n := by
              have le := (List.dropWhile_sublist isNamePart (l := rest)).length_le
              omega
            exact (ih _ shorter _ (by rwa [behind]) a.length rfl).name below start top freeStart
          · have behind : (place .bare (a ++ [c])).literal = none := by
              rw [place_concat]
              exact literal_next free noQuote
            exact (ih _ (by omega) rest behind found rfl).other below free noQuote name
      · rw [Settles, searchFrom, lastNameFrom, if_pos reached]
        exact .inl ⟨rfl, fun i lower upper => absurd upper (by omega)⟩

end

theorem hoverAnchor_settlesOn (e : Text) : SettlesOn e 0 (limit e) 0 (hoverAnchor e) :=
  settles (a := []) (limit e) e rfl 0

end Anchor

theorem hoverAnchor_lt {expression : Text} (nonempty : expression ≠ []) :
    hoverAnchor expression < expression.length := by
  rcases Anchor.hoverAnchor_settlesOn expression with ⟨zero, _⟩ | ⟨_, _, named, _⟩
  · rw [zero]
    exact List.length_pos_iff.mpr nonempty
  · exact named.lt_length

end TemplateTypes
