import TemplateTypes.Resolver.Chain
import TemplateTypes.Proofs.Probe.Reading
import TemplateTypes.Proofs.Text.Spacing

namespace TemplateTypes

open Text

namespace Chain

open Anchor

/-- A piece of a chain with the steps it stands for and the text behind it. -/
inductive Piece : Text → List ChainStep → Text → Prop
  | sign (c : Char) (rest : Text) (silent : isBlank c = true ∨ c = '!') : Piece [c] [] rest
  | dot (rest : Text) (bracket : bracketNext rest = true) : Piece ['.'] [] rest
  | optional (rest : Text) : Piece ['?'] [] ('.' :: rest)
  | member (name rest : Text) (named : name? (name ++ rest) = some (name, rest)) :
      Piece ('.' :: name) [.member name] rest
  | index (subscript rest : Text)
      (closing : closing? '[' ']' 0 (subscript ++ ']' :: rest) = some subscript.length) :
      Piece ('[' :: (subscript ++ [']'])) [.index subscript] rest
  | call (arguments rest : Text)
      (closing : closing? '(' ')' 0 (arguments ++ ')' :: rest) = some arguments.length) :
      Piece ('(' :: (arguments ++ [')'])) [.call arguments] rest

theorem closing?_cut {opens closes : Char} {depth i : Nat} {t : Text}
    (found : closing? opens closes depth t = some i) :
    ∃ inner rest, t = inner ++ closes :: rest ∧ inner.length = i := by
  induction t generalizing depth i with
  | nil => cases found
  | cons c t ih =>
    have later : ∀ depth, (closing? opens closes depth t).map (· + 1) = some i →
        ∃ inner rest, c :: t = inner ++ closes :: rest ∧ inner.length = i := by
      intro depth counted
      obtain ⟨j, shifted, rfl⟩ := Option.map_eq_some_iff.mp counted
      obtain ⟨inner, rest, rfl, rfl⟩ := ih shifted
      exact ⟨c :: inner, rest, rfl, rfl⟩
    unfold closing? at found
    split at found
    · exact later _ found
    · split at found
      · rename_i closes
        split at found
        · cases found
          exact ⟨[], t, by rw [eq_of_beq closes]; rfl, rfl⟩
        · exact later _ found
      · exact later _ found

theorem name?_cut {t name rest : Text} (named : name? t = some (name, rest)) :
    t = name ++ rest := by
  cases t with
  | nil => cases named
  | cons c t =>
    obtain ⟨_, parts⟩ := Option.ite_none_right_eq_some.mp named
    cases parts
    rw [List.cons_append, List.takeWhile_append_dropWhile]

theorem name?_parts {t name rest : Text} (named : name? t = some (name, rest)) :
    ∃ c u, name = c :: u ∧ isNameStart c = true ∧ ∀ d ∈ name, isNamePart d = true := by
  cases t with
  | nil => cases named
  | cons c t =>
    obtain ⟨start, parts⟩ := Option.ite_none_right_eq_some.mp named
    cases parts
    exact ⟨c, _, rfl, start, isNamePart_of_mem_name start t⟩

theorem stepsFrom_skip (skip : Nat) (t : Text) : stepsFrom skip t = stepsFrom 0 (t.drop skip) := by
  induction skip generalizing t with
  | zero => rfl
  | succ skip ih =>
    cases t with
    | nil => rfl
    | cons c t => rw [stepsFrom, ih, List.drop_succ_cons]

theorem stepsFrom_append (a t : Text) : stepsFrom a.length (a ++ t) = stepsFrom 0 t := by
  rw [stepsFrom_skip, List.drop_left]

theorem stepsFrom_sign {c : Char} (silent : isBlank c = true ∨ c = '!') (rest : Text) :
    stepsFrom 0 (c :: rest) = stepsFrom 0 rest := by
  rw [stepsFrom, if_pos (by simpa using silent)]

def afterDot (rest : Text) : Option (List ChainStep) :=
  if bracketNext rest then stepsFrom 0 rest
  else (name? rest).bind fun (name, behind) => (stepsFrom 0 behind).map (.member name :: ·)

theorem stepsFrom_dot (rest : Text) : stepsFrom 0 ('.' :: rest) = afterDot rest := by
  have solid : isBlank '.' = false := by decide
  cases bracket : bracketNext rest with
  | true => simp [stepsFrom, afterDot, solid, bracket]
  | false =>
    cases named : name? rest with
    | none => simp [stepsFrom, afterDot, solid, bracket, named]
    | some found =>
      have behind : stepsFrom found.1.length rest = stepsFrom 0 found.2 := by
        conv_lhs => rw [name?_cut named, stepsFrom_append]
      simp [stepsFrom, afterDot, solid, bracket, named, behind]

theorem stepsFrom_optional (rest : Text) : stepsFrom 0 ('?' :: '.' :: rest) = afterDot rest := by
  have solid : isBlank '?' = false := by decide
  cases bracket : bracketNext rest with
  | true => simp [stepsFrom, afterDot, solid, bracket, startsWith]
  | false =>
    cases named : name? rest with
    | none => simp [stepsFrom, afterDot, solid, bracket, named, startsWith]
    | some found =>
      have behind : stepsFrom (1 + found.1.length) ('.' :: rest) = stepsFrom 0 found.2 := by
        conv_lhs => rw [name?_cut named, Nat.add_comm, stepsFrom, stepsFrom_append]
      simp [stepsFrom, afterDot, solid, bracket, named, behind, startsWith]

theorem stepsFrom_index (rest : Text) : stepsFrom 0 ('[' :: rest) =
    (closing? '[' ']' 0 rest).bind fun i =>
      (stepsFrom (i + 1) rest).map (.index (rest.take i) :: ·) := by
  have solid : isBlank '[' = false := by decide
  cases closing : closing? '[' ']' 0 rest <;> simp [stepsFrom, solid, closing]

theorem stepsFrom_call (rest : Text) : stepsFrom 0 ('(' :: rest) =
    (closing? '(' ')' 0 rest).bind fun i =>
      (stepsFrom (i + 1) rest).map (.call (rest.take i) :: ·) := by
  have solid : isBlank '(' = false := by decide
  cases closing : closing? '(' ')' 0 rest <;> simp [stepsFrom, solid, closing]

theorem stepsFrom_closed (inner : Text) (c : Char) (rest : Text) :
    stepsFrom (inner.length + 1) (inner ++ c :: rest) = stepsFrom 0 rest := by
  rw [List.append_cons, ← List.length_singleton (a := c), ← List.length_append, stepsFrom_append]

theorem bracketNext_name {name rest : Text} (named : name? (name ++ rest) = some (name, rest)) :
    bracketNext (name ++ rest) = false := by
  cases text : name ++ rest with
  | nil => rfl
  | cons c t =>
    rw [text] at named
    obtain ⟨start, _⟩ := Option.ite_none_right_eq_some.mp named
    have square : c ≠ '[' := by
      rintro rfl
      exact absurd start (by decide)
    have round : c ≠ '(' := by
      rintro rfl
      exact absurd start (by decide)
    simp [bracketNext, startsWith, List.isPrefixOf, Ne.symm square, Ne.symm round]

theorem Piece.stepsFrom_eq {piece : Text} {steps : List ChainStep} {behind : Text}
    (is : Piece piece steps behind) :
    stepsFrom 0 (piece ++ behind) = (stepsFrom 0 behind).map (steps ++ ·) := by
  have nothing : ∀ found : Option (List ChainStep), found.map ([] ++ ·) = found := fun found => by
    cases found <;> rfl
  cases is with
  | sign c _ silent => rw [List.singleton_append, stepsFrom_sign silent, nothing]
  | dot _ bracket => rw [List.singleton_append, stepsFrom_dot, afterDot, if_pos bracket, nothing]
  | optional rest => rw [List.singleton_append, stepsFrom_optional, stepsFrom_dot, nothing]
  | member name _ named =>
    rw [List.cons_append, stepsFrom_dot, afterDot, bracketNext_name named, named]
    rfl
  | index subscript _ closing =>
    rw [List.cons_append, List.append_assoc, List.singleton_append, stepsFrom_index, closing,
      Option.bind_some, stepsFrom_closed, List.take_left]
    rfl
  | call arguments _ closing =>
    rw [List.cons_append, List.append_assoc, List.singleton_append, stepsFrom_call, closing,
      Option.bind_some, stepsFrom_closed, List.take_left]
    rfl

theorem exists_piece {t : Text} {steps : List ChainStep} (nonempty : t ≠ [])
    (read : stepsFrom 0 t = some steps) :
    ∃ piece new behind, t = piece ++ behind ∧ piece ≠ [] ∧ Piece piece new behind := by
  obtain ⟨c, rest, rfl⟩ := List.exists_cons_of_ne_nil nonempty
  by_cases silent : isBlank c = true ∨ c = '!'
  · exact ⟨[c], [], rest, rfl, by simp, .sign c rest silent⟩
  by_cases dot : c = '.'
  · subst dot
    rw [stepsFrom_dot, afterDot] at read
    split at read
    · rename_i bracket
      exact ⟨['.'], [], rest, rfl, by simp, .dot rest bracket⟩
    · obtain ⟨⟨name, behind⟩, named, _⟩ := Option.bind_eq_some_iff.mp read
      have cut := name?_cut named
      subst cut
      exact ⟨'.' :: name, _, behind, rfl, by simp, .member name behind named⟩
  by_cases square : c = '['
  · subst square
    rw [stepsFrom_index] at read
    obtain ⟨i, closing, _⟩ := Option.bind_eq_some_iff.mp read
    obtain ⟨subscript, behind, rfl, rfl⟩ := closing?_cut closing
    exact ⟨_, _, behind, by simp, by simp, .index subscript behind closing⟩
  by_cases round : c = '('
  · subst round
    rw [stepsFrom_call] at read
    obtain ⟨i, closing, _⟩ := Option.bind_eq_some_iff.mp read
    obtain ⟨arguments, behind, rfl, rfl⟩ := closing?_cut closing
    exact ⟨_, _, behind, by simp, by simp, .call arguments behind closing⟩
  by_cases optional : c = '?' ∧ startsWith rest ['.'] = true
  · obtain ⟨rfl, dotted⟩ := optional
    obtain ⟨behind, rfl⟩ := List.isPrefixOf_iff_prefix.mp dotted
    exact ⟨['?'], [], '.' :: behind, rfl, by simp, .optional behind⟩
  · rw [not_or] at silent
    simp [stepsFrom, silent, dot, square, round, optional] at read

inductive Reads : Text → List ChainStep → Text → Prop
  | done (behind : Text) : Reads [] [] behind
  | piece {piece t behind : Text} {steps later : List ChainStep}
      (first : Piece piece steps (t ++ behind)) (more : Reads t later behind) :
      Reads (piece ++ t) (steps ++ later) behind

theorem reads_of_stepsFrom {t : Text} {steps : List ChainStep}
    (read : stepsFrom 0 t = some steps) : Reads t steps [] := by
  induction length : t.length using Nat.strongRecOn generalizing t steps with
  | ind n ih =>
    by_cases nonempty : t = []
    · subst nonempty
      cases read
      exact .done []
    · obtain ⟨piece, new, behind, rfl, some, first⟩ := exists_piece nonempty read
      rw [first.stepsFrom_eq] at read
      obtain ⟨later, rest, rfl⟩ := Option.map_eq_some_iff.mp read
      have shorter : behind.length < n := by
        have positive := List.length_pos_iff.mpr some
        rw [List.length_append] at length
        omega
      exact .piece (by rwa [List.append_nil]) (ih behind.length shorter rest rfl)

theorem Reads.stepsFrom_eq {t behind : Text} {steps : List ChainStep}
    (reads : Reads t steps behind) :
    stepsFrom 0 (t ++ behind) = (stepsFrom 0 behind).map (steps ++ ·) := by
  induction reads with
  | done behind => simp
  | piece first _ ih =>
    rw [List.append_assoc, first.stepsFrom_eq, ih, Option.map_map]
    congr 1
    funext steps
    exact (List.append_assoc ..).symm

theorem Reads.split {t behind name : Text} {before after : List ChainStep}
    (reads : Reads t (before ++ .member name :: after) behind) :
    ∃ a v, t = a ++ '.' :: (name ++ v) ∧ Reads a before ('.' :: (name ++ v) ++ behind) ∧
      name? (name ++ (v ++ behind)) = some (name, v ++ behind) ∧ Reads v after behind := by
  generalize whole : before ++ .member name :: after = steps at reads
  induction reads generalizing before with
  | done behind => simp at whole
  | @piece piece t behind new later first more ih =>
    have onward : ∀ before', before' ++ .member name :: after = later →
        new ++ before' = before →
        ∃ a v, piece ++ t = a ++ '.' :: (name ++ v) ∧
          Reads a before ('.' :: (name ++ v) ++ behind) ∧
          name? (name ++ (v ++ behind)) = some (name, v ++ behind) ∧ Reads v after behind := by
      rintro before' rest rfl
      obtain ⟨a, v, rfl, front, named, back⟩ := ih rest
      refine ⟨piece ++ a, v, by rw [List.append_assoc], .piece ?_ front, named, back⟩
      rwa [List.append_assoc] at first
    generalize rear : t ++ behind = rest at first
    cases first with
    | sign | dot | optional => exact onward before whole rfl
    | member found _ named =>
      cases before with
      | nil =>
        obtain ⟨same, rfl⟩ := List.cons.inj whole
        cases same
        subst rear
        exact ⟨[], t, rfl, .done _, named, more⟩
      | cons step before =>
        obtain ⟨rfl, rest⟩ := List.cons.inj whole
        exact onward before rest rfl
    | index | call =>
      cases before with
      | nil => cases whole
      | cons step before =>
        obtain ⟨rfl, rest⟩ := List.cons.inj whole
        exact onward before rest rfl

/-- What a text shows outside brackets and literals is what the steps have there: no bar, a
    parenthesis for a call, and names for members only. -/
structure Shows (t : Text) (steps : List ChainStep) : Prop where
  back : place .escaping t = .start
  noBar : '|' ∉ surface .escaping .start t
  paren : '(' ∈ surface .escaping .start t ↔ ∃ arguments, .call arguments ∈ steps
  named : ∀ c ∈ surface .escaping .start t, isNameStart c = true → ∃ name, .member name ∈ steps

theorem Shows.append {t u : Text} {steps later : List ChainStep} (left : Shows t steps)
    (right : Shows u later) : Shows (t ++ u) (steps ++ later) := by
  have shown : surface .escaping .start (t ++ u) =
      surface .escaping .start t ++ surface .escaping .start u := by
    rw [surface_append, ← place, left.back]
  constructor
  · rw [place_append, left.back]
    exact right.back
  · rw [shown, List.mem_append]
    exact not_or.mpr ⟨left.noBar, right.noBar⟩
  · simp only [shown, List.mem_append, left.paren, right.paren, exists_or]
  · intro c member start
    rw [shown, List.mem_append] at member
    rcases member with member | member
    · obtain ⟨name, named⟩ := left.named c member start
      exact ⟨name, List.mem_append_left later named⟩
    · obtain ⟨name, named⟩ := right.named c member start
      exact ⟨name, List.mem_append_right steps named⟩

theorem surface_flat {t : Text}
    (flat : ∀ c ∈ t, quotes c = false ∧ opens c = false ∧ closes c = false) :
    place .escaping t = .start ∧ surface .escaping .start t = t := by
  induction t with
  | nil => exact ⟨rfl, rfl⟩
  | cons c t ih =>
    obtain ⟨noQuote, noOpener, noCloser⟩ := flat c List.mem_cons_self
    have same : Place.start.next .escaping c = .start :=
      Place.next_other rfl noQuote noOpener noCloser
    obtain ⟨back, shown⟩ := ih fun d member => flat d (List.mem_cons_of_mem c member)
    constructor
    · rwa [place, Place.run_cons, same]
    · rw [surface, same, shown]
      rfl

theorem shows_silent {t : Text}
    (silent : ∀ c ∈ t, isBlank c = true ∨ c = '!' ∨ c = '.' ∨ c = '?') : Shows t [] := by
  have noSign : signs.all (!isBlank ·) = true := by decide
  have flat : ∀ c ∈ t, quotes c = false ∧ opens c = false ∧ closes c = false := by
    intro c member
    rcases silent c member with blank | rfl | rfl | rfl
    · apply flat_of_not_mem_signs
      intro sign
      have solid := List.all_eq_true.mp noSign c sign
      rw [blank] at solid
      cases solid
    all_goals decide
  obtain ⟨back, shown⟩ := surface_flat flat
  refine ⟨back, ?_, ?_, ?_⟩
  all_goals rw [shown]
  · intro bar
    exact absurd (silent _ bar) (by decide)
  · constructor
    · intro paren
      exact absurd (silent _ paren) (by decide)
    · rintro ⟨arguments, member⟩
      cases member
  · intro c member start
    have solid := namesOnly_isNamePart.solid c (isNamePart_of_isNameStart start)
    rcases silent c member with blank | rfl | rfl | rfl
    · rw [solid] at blank
      cases blank
    all_goals exact absurd start (by decide)

theorem shows_name {t : Text} (parts : ∀ c ∈ t, isNamePart c = true) :
    Shows t [.member t] := by
  obtain ⟨back, shown⟩ := surface_flat fun c member => flat_of_isNamePart (parts c member)
  refine ⟨back, ?_, ?_, fun _ _ _ => ⟨t, List.mem_singleton.mpr rfl⟩⟩
  · rw [shown]
    intro bar
    exact absurd (parts _ bar) (by decide)
  · rw [shown]
    constructor
    · intro paren
      exact absurd (parts _ paren) (by decide)
    · rintro ⟨arguments, member⟩
      simp at member

theorem surface_group (opener closer : Char) (noQuote : quotes opener = false)
    (opening : opens opener = true) (closing : closes closer = true)
    (plain : quotes closer = false ∧ opens closer = false) {inner : Text} (closed : Closed inner) :
    place .escaping (opener :: (inner ++ [closer])) = .start ∧
      surface .escaping .start (opener :: (inner ++ [closer])) = [opener] := by
  have deeper : Place.start.next .escaping opener = ⟨1, none⟩ :=
    Place.next_opener rfl noQuote opening
  constructor
  · rw [place, Place.run_cons, deeper, Place.run_concat, closed.run_eq,
      Place.next_closer rfl plain.1 plain.2 closing]
    rfl
  · rw [surface, deeper, surface_append, closed.surface_eq, closed.run_eq]
    rfl

theorem shows_group (opener closer : Char) (noQuote : quotes opener = false)
    (opening : opens opener = true) (closing : closes closer = true)
    (plain : quotes closer = false ∧ opens closer = false) {inner : Text} (closed : Closed inner)
    {step : ChainStep} (call : opener = '(' ↔ ∃ arguments, step = .call arguments) :
    Shows (opener :: (inner ++ [closer])) [step] := by
  obtain ⟨back, shown⟩ := surface_group opener closer noQuote opening closing plain closed
  refine ⟨back, ?_, ?_, ?_⟩
  all_goals simp only [shown, List.mem_singleton]
  · rintro rfl
    exact absurd opening (by decide)
  · rw [eq_comm, call]
    simp only [eq_comm]
  · rintro c rfl start
    obtain ⟨_, noOpener, _⟩ := flat_of_isNamePart (isNamePart_of_isNameStart start)
    rw [noOpener] at opening
    cases opening

theorem Piece.shows {piece : Text} {steps : List ChainStep} {behind : Text}
    (is : Piece piece steps behind)
    (closed : ∀ inner, .index inner ∈ steps ∨ .call inner ∈ steps → Closed inner) :
    Shows piece steps := by
  cases is with
  | sign c _ silent =>
    refine shows_silent fun d member => ?_
    rw [List.mem_singleton.mp member]
    exact silent.imp_right .inl
  | dot => exact shows_silent (by simp)
  | optional => exact shows_silent (by simp)
  | member name _ named =>
    obtain ⟨_, _, _, _, parts⟩ := name?_parts named
    have dot : Shows ['.'] [] := shows_silent (by simp)
    exact dot.append (shows_name parts)
  | index subscript _ _ =>
    have inner := closed subscript (.inl (List.mem_singleton.mpr rfl))
    exact shows_group '[' ']' (by decide) (by decide) (by decide) (by decide) inner
      (iff_of_false (by decide) (by simp))
  | call arguments _ _ =>
    have inner := closed arguments (.inr (List.mem_singleton.mpr rfl))
    exact shows_group '(' ')' (by decide) (by decide) (by decide) (by decide) inner
      (iff_of_true rfl ⟨arguments, rfl⟩)

theorem Reads.shows {t : Text} {steps : List ChainStep} {behind : Text}
    (reads : Reads t steps behind)
    (closed : ∀ inner, .index inner ∈ steps ∨ .call inner ∈ steps → Closed inner) :
    Shows t steps := by
  induction reads with
  | done => exact shows_silent (by simp)
  | piece first _ ih =>
    refine (first.shows fun inner within => ?_).append (ih fun inner within => ?_)
    · exact closed inner (within.imp (List.mem_append_left _) (List.mem_append_left _))
    · exact closed inner (within.imp (List.mem_append_right _) (List.mem_append_right _))

/-- The expression is read as the chain and shows its last member's name behind `a`. -/
structure LastMember (e : Text) (chain before : List ChainStep) (name : Text)
    (after : List ChainStep) (a v : Text) : Prop where
  text : e = a ++ (name ++ v)
  steps : chain = before ++ .member name :: after
  last : ∀ other, .member other ∉ after
  front : Shows a before
  back : Shows v after
  free : freeBefore a.getLast? = true
  named : ∃ c u, name = c :: u ∧ isNameStart c = true ∧ ∀ d ∈ name, isNamePart d = true
  onward : ofExpression? (e.drop a.length) = some (.member name :: after)

theorem exists_last_member {steps : List ChainStep} (member : ∃ name, .member name ∈ steps) :
    ∃ before name after, steps = before ++ .member name :: after ∧
      ∀ other, .member other ∉ after := by
  induction steps with
  | nil =>
    obtain ⟨name, none⟩ := member
    cases none
  | cons step steps ih =>
    by_cases later : ∃ name, .member name ∈ steps
    · obtain ⟨before, name, after, rfl, last⟩ := ih later
      exact ⟨step :: before, name, after, rfl, last⟩
    · obtain ⟨name, here⟩ := member
      rcases List.mem_cons.mp here with rfl | there
      · exact ⟨[], name, steps, rfl, not_exists.mp later⟩
      · exact absurd ⟨name, there⟩ later

theorem ofExpression?_of_trim {t name rest : Text} {after : List ChainStep}
    (cut : trim t = name ++ rest) (named : name? (name ++ rest) = some (name, rest))
    (read : stepsFrom 0 rest = some after) : ofExpression? t = some (.member name :: after) := by
  rw [ofExpression?, cut, named]
  simp [read]

theorem trim_name {e a name rest b : Text} (cut : trim e = a ++ (name ++ rest))
    (named : name? (name ++ rest) = some (name, rest)) (blank : allBlank b = true) :
    trim (name ++ (rest ++ b)) = name ++ rest := by
  obtain ⟨c, u, rfl, start, _⟩ := name?_parts named
  have trimmed : Trimmed (c :: u ++ rest) := by
    constructor
    · intro d first
      cases first
      exact namesOnly_isNamePart.solid c (isNamePart_of_isNameStart start)
    · intro d last
      apply (trimmed_trim e).back d
      rw [cut, List.getLast?_append_of_ne_nil a (by simp)]
      exact last
  have around := trim_blanks (a := []) rfl blank (c :: u ++ rest)
  rwa [List.nil_append, List.append_assoc, trimmed.trim_eq] at around

theorem exists_lastMember {e : Text} {chain : List ChainStep}
    (read : ofExpression? e = some chain)
    (closed : ∀ inner, .index inner ∈ chain ∨ .call inner ∈ chain → Closed inner) :
    ∃ before name after a v, LastMember e chain before name after a v := by
  obtain ⟨l, r, leading, trailing, text⟩ := exists_blanks_trim e
  have silent : ∀ b, allBlank b = true → Shows b [] := fun b blank =>
    shows_silent fun c member => .inl (List.all_eq_true.mp blank c member)
  have freeBlank : freeBefore l.getLast? = true := by
    cases last : l.getLast? with
    | none => rfl
    | some c =>
      have blank := List.all_eq_true.mp leading c (List.mem_of_getLast? last)
      exact freeBefore_of_blank blank
  unfold ofExpression? at read
  split at read
  · cases read
  · rename_i first rest found
    obtain ⟨steps, behind, rfl⟩ := Option.map_eq_some_iff.mp read
    have parts := name?_cut found
    rw [parts] at found
    have reads := reads_of_stepsFrom behind
    obtain ⟨before, name, after, split, last⟩ :=
      exists_last_member ⟨first, List.mem_cons_self⟩
    refine ⟨before, name, after, ?_⟩
    rw [split] at closed
    cases before with
    | nil =>
      obtain ⟨same, rfl⟩ := List.cons.inj split
      cases same
      have back : Shows rest steps := reads.shows fun inner within =>
        closed inner (within.imp (List.mem_cons_of_mem _) (List.mem_cons_of_mem _))
      have cut := trim_name (a := []) parts found trailing
      refine ⟨l, rest ++ r, by rw [text, parts, List.append_assoc], split, last, silent l leading,
        ?_, freeBlank, name?_parts found, ?_⟩
      · rw [← List.append_nil steps]
        exact back.append (silent r trailing)
      · rw [text, parts, List.append_assoc, List.drop_left]
        exact ofExpression?_of_trim cut found behind
    | cons step before =>
      obtain ⟨rfl, rfl⟩ := List.cons.inj split
      obtain ⟨u, v, rfl, front, named, back⟩ := reads.split
      rw [List.append_nil] at named
      have regroup : trim e = first ++ (u ++ ['.']) ++ (name ++ v) := by
        rw [parts]
        simp only [List.append_assoc, List.singleton_append]
      have whole : e = l ++ (first ++ (u ++ ['.'])) ++ (name ++ (v ++ r)) := by
        rw [text, regroup]
        simp only [List.append_assoc]
      have shown : Shows u before := front.shows fun inner within =>
        closed inner (within.imp (by simp +contextual) (by simp +contextual))
      have ending : Shows v after := back.shows fun inner within =>
        closed inner (within.imp (by simp +contextual) (by simp +contextual))
      obtain ⟨_, _, _, _, firstParts⟩ := name?_parts found
      have dot : Shows ['.'] [] := shows_silent (by simp)
      refine ⟨l ++ (first ++ (u ++ ['.'])), v ++ r, whole, rfl, last, ?_, ?_, ?_, name?_parts named,
        ?_⟩
      · rw [← List.append_nil before]
        exact (silent l leading).append ((shows_name firstParts).append (shown.append dot))
      · rw [← List.append_nil after]
        exact ending.append (silent r trailing)
      · rw [← List.append_assoc, ← List.append_assoc, List.getLast?_concat]
        decide
      · have read := back.stepsFrom_eq
        rw [whole, List.drop_left]
        refine ofExpression?_of_trim (trim_name regroup named trailing) named ?_
        simpa [stepsFrom] using read

end Chain

end TemplateTypes
