import TemplateTypes.Proofs.Resolver.Chain

namespace TemplateTypes.Chain

open Text Anchor

def IsGap (t : Text) : Prop := ∀ c ∈ t, isBlank c = true ∨ c = '!'

inductive SpellsStep : ChainStep → Text → Prop
  | member {link name : Text} (dots : link = ['.'] ∨ link = ['?', '.']) (named : IsName name) :
      SpellsStep (.member name) (link ++ name)
  | index {link : Text} (subscript : Text) (dots : link = [] ∨ link = ['?', '.']) :
      SpellsStep (.index subscript) (link ++ '[' :: (subscript ++ [']']))
  | call {link : Text} (arguments : Text) (dots : link = [] ∨ link = ['?', '.']) :
      SpellsStep (.call arguments) (link ++ '(' :: (arguments ++ [')']))

inductive Spells : List ChainStep → Text → Prop
  | done {gap : Text} (silent : IsGap gap) : Spells [] gap
  | step {gap text rest : Text} {step : ChainStep} {steps : List ChainStep} (silent : IsGap gap)
      (first : SpellsStep step text) (more : Spells steps rest) :
      Spells (step :: steps) (gap ++ (text ++ rest))

/-- The brackets of one kind match each other, those in literals among them. -/
structure Matches (opener closer : Char) (t : Text) : Prop where
  even : t.count opener = t.count closer
  ahead : ∀ front, front <+: t → front.count closer ≤ front.count opener

def Legible : ChainStep → Prop
  | .member _ => True
  | .index subscript => Matches '[' ']' subscript
  | .call arguments => Matches '(' ')' arguments

def bracketPairs : List (Char × Char) := [('(', ')'), ('[', ']'), ('\x7b', '\x7d')]

/-- What stands between the quotes of a literal: its quote only behind a backslash. -/
inductive LiteralText (quote : Char) : Text → Prop
  | nil : LiteralText quote []
  | plain {c : Char} {t : Text} (other : c ≠ quote) (unescaped : c ≠ '\\')
      (more : LiteralText quote t) : LiteralText quote (c :: t)
  | escaped {c : Char} {t : Text} (more : LiteralText quote t) : LiteralText quote ('\\' :: c :: t)

/-- Brackets match outside literals, and `within` holds for the characters in literals. -/
inductive Argument (within : Char → Prop) : Text → Prop
  | nil : Argument within []
  | plain {c : Char} {t : Text} (noQuote : quotes c = false) (noOpener : opens c = false)
      (noCloser : closes c = false) (more : Argument within t) : Argument within (c :: t)
  | group {opener closer : Char} {inner t : Text} (pair : (opener, closer) ∈ bracketPairs)
      (enclosed : Argument within inner) (more : Argument within t) :
      Argument within (opener :: (inner ++ closer :: t))
  | literal {quote : Char} {inner t : Text} (quoted : quotes quote = true)
      (literal : LiteralText quote inner) (held : ∀ c ∈ inner, within c)
      (more : Argument within t) : Argument within (quote :: (inner ++ quote :: t))

/-- The literals of an argument hold no bracket of the kind that stands around it. -/
def PlainLiterals : ChainStep → Prop
  | .member _ => True
  | .index subscript => Argument (fun c => c ≠ '[' ∧ c ≠ ']') subscript
  | .call arguments => Argument (fun c => c ≠ '(' ∧ c ≠ ')') arguments

theorem forall_prefix_cons {P : Text → Prop} {c : Char} {t : Text} :
    (∀ front, front <+: c :: t → P front) ↔ P [] ∧ ∀ front, front <+: t → P (c :: front) := by
  constructor
  · exact fun all => ⟨all [] List.nil_prefix, fun front starts =>
      all (c :: front) (List.cons_prefix_cons.mpr ⟨rfl, starts⟩)⟩
  · rintro ⟨first, later⟩ front starts
    rcases List.prefix_cons_iff.mp starts with rfl | ⟨front, rfl, within⟩
    · exact first
    · exact later front within

theorem closing?_eq_length_iff {opener closer : Char} (other : closer ≠ opener) (depth : Nat)
    (inner rest : Text) :
    closing? opener closer depth (inner ++ closer :: rest) = some inner.length ↔
      depth + inner.count opener = inner.count closer ∧
        ∀ front, front <+: inner → front.count closer ≤ depth + front.count opener := by
  induction inner generalizing depth with
  | nil => by_cases level : depth = 0 <;> simp [closing?, other, level]
  | cons c inner ih =>
    have later : ∀ depth, (closing? opener closer depth (inner ++ closer :: rest)).map (· + 1) =
        some (c :: inner).length ↔ depth + inner.count opener = inner.count closer ∧
          ∀ front, front <+: inner → front.count closer ≤ depth + front.count opener := by
      intro depth
      rw [← ih, List.length_cons, Option.map_eq_some_iff]
      simp
    rw [forall_prefix_cons, List.cons_append, closing?]
    by_cases opens : c = opener
    · subst opens
      rw [if_pos (beq_self_eq_true c), later]
      simp only [List.count_cons_self, List.count_cons_of_ne other.symm, List.count_nil]
      refine and_congr (by omega) ?_
      rw [and_iff_right (Nat.zero_le _)]
      exact forall₂_congr fun front _ => by omega
    · by_cases closes : c = closer
      · subst closes
        rw [if_neg (by simpa using other), if_pos (beq_self_eq_true c)]
        cases depth with
        | zero =>
          refine iff_of_false (by simp) fun ⟨_, _, ahead⟩ => ?_
          have first := ahead [] List.nil_prefix
          simp [List.count_cons_of_ne other] at first
        | succ depth =>
          rw [if_neg (Nat.succ_ne_zero depth), Nat.add_sub_cancel, later]
          simp only [List.count_cons_self, List.count_cons_of_ne other, List.count_nil]
          refine and_congr (by omega) ?_
          rw [and_iff_right (Nat.zero_le _)]
          exact forall₂_congr fun front _ => by omega
      · rw [if_neg (by simpa using opens), if_neg (by simpa using closes), later]
        simp only [List.count_cons_of_ne opens, List.count_cons_of_ne closes, List.count_nil,
          Nat.zero_le, true_and]

theorem closing?_iff_matches {opener closer : Char} (other : closer ≠ opener) (inner rest : Text) :
    closing? opener closer 0 (inner ++ closer :: rest) = some inner.length ↔
      Matches opener closer inner := by
  rw [closing?_eq_length_iff other]
  simp only [Nat.zero_add]
  exact ⟨fun ⟨even, ahead⟩ => ⟨even, ahead⟩, fun ⟨even, ahead⟩ => ⟨even, ahead⟩⟩

theorem Matches.append {opener closer : Char} {t u : Text} (left : Matches opener closer t)
    (right : Matches opener closer u) : Matches opener closer (t ++ u) := by
  constructor
  · rw [List.count_append, List.count_append, left.even, right.even]
  · intro front starts
    rcases List.prefix_or_prefix_of_prefix starts (List.prefix_append t u) with within | beyond
    · exact left.ahead front within
    · obtain ⟨rest, rfl⟩ := beyond
      have later := right.ahead rest ((List.prefix_append_right_inj t).mp starts)
      rw [List.count_append, List.count_append, left.even]
      omega

theorem matches_of_not_mem {opener closer : Char} {t : Text} (noOpener : opener ∉ t)
    (noCloser : closer ∉ t) : Matches opener closer t := by
  constructor
  · rw [List.count_eq_zero.mpr noOpener, List.count_eq_zero.mpr noCloser]
  · intro front starts
    rw [List.count_eq_zero.mpr fun within => noCloser (starts.subset within)]
    exact Nat.zero_le _

theorem Matches.enclose {opener closer : Char} (other : closer ≠ opener) {inner : Text}
    (same : Matches opener closer inner) :
    Matches opener closer (opener :: (inner ++ [closer])) := by
  have even := same.even
  constructor
  · simp [List.count_append, List.count_cons_of_ne other, List.count_cons_of_ne other.symm, even]
  · rw [forall_prefix_cons]
    refine ⟨Nat.zero_le _, fun front starts => ?_⟩
    rw [List.count_cons_self, List.count_cons_of_ne other.symm]
    rcases List.prefix_concat_iff.mp starts with rfl | within
    · simp [List.count_append, even]
    · exact Nat.le_succ_of_le (same.ahead front within)

theorem bracketPairs_apart : ∀ pair ∈ bracketPairs, pair.2 ≠ pair.1 ∧ ∀ other ∈ bracketPairs,
    other = pair ∨ (other.1 ≠ pair.1 ∧ other.1 ≠ pair.2) ∧ other.2 ≠ pair.1 ∧ other.2 ≠ pair.2 := by
  decide

theorem bracketPairs_facts : ∀ pair ∈ bracketPairs, (opens pair.1 = true ∧ closes pair.2 = true) ∧
    quotes pair.1 = false ∧ quotes pair.2 = false := by
  decide

theorem Argument.matches {opener closer : Char} (pair : (opener, closer) ∈ bracketPairs) {t : Text}
    (argument : Argument (fun c => c ≠ opener ∧ c ≠ closer) t) : Matches opener closer t := by
  obtain ⟨other, apart⟩ := bracketPairs_apart _ pair
  obtain ⟨⟨opening, closing⟩, noQuotes⟩ := bracketPairs_facts _ pair
  have silent : ∀ c, c ≠ opener ∧ c ≠ closer → Matches opener closer [c] := fun c differs =>
    matches_of_not_mem (by simpa using differs.1.symm) (by simpa using differs.2.symm)
  induction argument with
  | nil => exact matches_of_not_mem List.not_mem_nil List.not_mem_nil
  | @plain c t noQuote noOpener noCloser _ ih =>
    refine (silent c ⟨?_, ?_⟩).append ih
    · rintro rfl
      exact absurd opening (by simp [noOpener])
    · rintro rfl
      exact absurd closing (by simp [noCloser])
  | @group opens closes inner t kind _ _ inside ih =>
    have text : opens :: (inner ++ closes :: t) = (opens :: (inner ++ [closes])) ++ t := by simp
    rw [text]
    refine Matches.append ?_ ih
    rcases apart _ kind with same | ⟨first, last⟩
    · cases same
      exact inside.enclose other
    · exact (silent opens first).append (inside.append (silent closes last))
  | @literal quote inner t quoted _ held _ ih =>
    have text : quote :: (inner ++ quote :: t) = [quote] ++ (inner ++ ([quote] ++ t)) := rfl
    have mark : Matches opener closer [quote] := by
      apply silent
      constructor
      · rintro rfl
        exact absurd quoted (by simp [noQuotes.1])
      · rintro rfl
        exact absurd quoted (by simp [noQuotes.2])
    have inside : Matches opener closer inner := matches_of_not_mem
      (fun within => (held opener within).1 rfl) (fun within => (held closer within).2 rfl)
    rw [text]
    exact mark.append (inside.append (mark.append ih))

theorem PlainLiterals.legible {step : ChainStep} (plain : PlainLiterals step) : Legible step := by
  cases step with
  | member name => trivial
  | index subscript => exact Argument.matches (by decide) plain
  | call arguments => exact Argument.matches (by decide) plain

theorem stepsFrom_gap {gap : Text} (silent : IsGap gap) (rest : Text) :
    stepsFrom 0 (gap ++ rest) = stepsFrom 0 rest := by
  induction gap with
  | nil => rfl
  | cons c gap ih =>
    rw [List.cons_append, stepsFrom_sign (silent c List.mem_cons_self)]
    exact ih fun d member => silent d (List.mem_cons_of_mem c member)

theorem stepsFrom_link {link rest : Text} (dots : link = [] ∨ link = ['?', '.'])
    (bracket : bracketNext rest = true) : stepsFrom 0 (link ++ rest) = stepsFrom 0 rest := by
  rcases dots with rfl | rfl
  · rfl
  · exact (stepsFrom_optional rest).trans (if_pos bracket)

theorem stepsFrom_member {link name rest : Text} (dots : link = ['.'] ∨ link = ['?', '.'])
    (named : name? (name ++ rest) = some (name, rest)) :
    stepsFrom 0 (link ++ (name ++ rest)) = (stepsFrom 0 rest).map (.member name :: ·) := by
  have behind : afterDot (name ++ rest) = (stepsFrom 0 rest).map (.member name :: ·) := by
    rw [afterDot, bracketNext_name named, named]
    rfl
  rcases dots with rfl | rfl
  · exact (stepsFrom_dot _).trans behind
  · exact (stepsFrom_optional _).trans behind

theorem bind_closing?_iff {opener closer : Char} (other : closer ≠ opener)
    {kind : Text → ChainStep} (injective : kind.Injective) (inner rest : Text)
    (steps : List ChainStep) :
    ((closing? opener closer 0 (inner ++ closer :: rest)).bind fun i =>
      (stepsFrom (i + 1) (inner ++ closer :: rest)).map
        (kind ((inner ++ closer :: rest).take i) :: ·)) = some (kind inner :: steps) ↔
      Matches opener closer inner ∧ stepsFrom 0 rest = some steps := by
  rw [← closing?_iff_matches other inner rest]
  constructor
  · intro read
    obtain ⟨i, found, read⟩ := Option.bind_eq_some_iff.mp read
    obtain ⟨later, behind, same⟩ := Option.map_eq_some_iff.mp read
    obtain ⟨first, rfl⟩ := List.cons.inj same
    have taken := injective first
    have place : i = inner.length := by
      obtain ⟨within, _, text, rfl⟩ := closing?_cut found
      rw [text, List.take_left] at taken
      rw [taken]
    subst place
    rw [stepsFrom_closed] at behind
    exact ⟨found, behind⟩
  · rintro ⟨found, behind⟩
    rw [found, Option.bind_some, stepsFrom_closed, List.take_left, behind]
    rfl

theorem SpellsStep.stepsFrom_iff {step : ChainStep} {text rest : Text}
    (spells : SpellsStep step text) (ends : ∀ c ∈ rest.head?, isNamePart c = false)
    (steps : List ChainStep) :
    stepsFrom 0 (text ++ rest) = some (step :: steps) ↔
      Legible step ∧ stepsFrom 0 rest = some steps := by
  cases spells with
  | member dots named =>
    rw [List.append_assoc, stepsFrom_member dots (named.name?_append ends)]
    simp [Legible]
  | index subscript dots =>
    rw [List.append_assoc, List.cons_append, List.append_assoc, List.singleton_append,
      stepsFrom_link dots rfl, stepsFrom_index]
    exact bind_closing?_iff (by decide) (fun _ _ => ChainStep.index.inj) subscript rest steps
  | call arguments dots =>
    rw [List.append_assoc, List.cons_append, List.append_assoc, List.singleton_append,
      stepsFrom_link dots rfl, stepsFrom_call]
    exact bind_closing?_iff (by decide) (fun _ _ => ChainStep.call.inj) arguments rest steps

theorem IsGap.not_isNamePart {gap : Text} (silent : IsGap gap) :
    ∀ c ∈ gap, isNamePart c = false := by
  intro c member
  rcases silent c member with blank | rfl
  · by_contra part
    rw [namesOnly_isNamePart.solid c (by simpa using part)] at blank
    cases blank
  · decide

theorem SpellsStep.head {step : ChainStep} {text : Text} (spells : SpellsStep step text) :
    ∃ c rest, text = c :: rest ∧ isNamePart c = false := by
  cases spells with
  | member dots | index _ dots | call _ dots =>
    rcases dots with rfl | rfl
    all_goals exact ⟨_, _, rfl, by decide⟩

theorem SpellsStep.getLast? {step : ChainStep} {text : Text} (spells : SpellsStep step text) :
    ∀ c ∈ text.getLast?, isBlank c = false := by
  intro c last
  cases spells with
  | @member link name _ named =>
    rw [List.getLast?_append_of_ne_nil link named.nonempty] at last
    exact namesOnly_isNamePart.solid c (named.all c (List.mem_of_getLast? last))
  | index | call =>
    rw [← List.cons_append, ← List.append_assoc, List.getLast?_concat] at last
    cases last
    decide

theorem Spells.head? {steps : List ChainStep} {t : Text} (spells : Spells steps t) :
    ∀ c ∈ t.head?, isNamePart c = false := by
  cases spells with
  | done silent => exact fun c first => silent.not_isNamePart c (List.mem_of_head? first)
  | @step gap text rest step steps silent first more =>
    intro c head
    cases gap with
    | nil =>
      obtain ⟨d, u, rfl, other⟩ := first.head
      cases head
      exact other
    | cons d gap =>
      cases head
      exact silent.not_isNamePart c List.mem_cons_self

theorem Spells.stepsFrom_iff {steps : List ChainStep} {t : Text} (spells : Spells steps t) :
    stepsFrom 0 t = some steps ↔ ∀ step ∈ steps, Legible step := by
  induction spells with
  | @done gap silent =>
    rw [← List.append_nil gap, stepsFrom_gap silent]
    simp [stepsFrom]
  | step silent first more ih =>
    rw [stepsFrom_gap silent, first.stepsFrom_iff more.head?, ih, List.forall_mem_cons]

theorem Spells.trimEnd {steps : List ChainStep} {t : Text} (spells : Spells steps t) :
    Spells steps (trimEnd t) := by
  induction spells with
  | @done gap silent =>
    exact .done fun c member => silent c ((isPrefix_trimEnd gap).subset member)
  | @step gap text rest step steps silent first more ih =>
    obtain ⟨c, u, rfl, _⟩ := first.head
    have last : ∀ d ∈ (gap ++ c :: u).getLast?, isBlank d = false := by
      rw [List.getLast?_append_of_ne_nil gap (by simp)]
      exact first.getLast?
    rw [← List.append_assoc, trimEnd_append last, List.append_assoc]
    exact .step silent first ih

theorem ofExpression?_sign {lead rest : Text} (silent : IsGap lead) (sign : '!' ∈ lead) :
    ofExpression? (lead ++ rest) = none := by
  obtain ⟨a, b, rfl, first⟩ := List.eq_append_cons_of_mem sign
  have blank : allBlank a = true := by
    refine List.all_eq_true.mpr fun c member => ?_
    refine (silent c (List.mem_append_left _ member)).resolve_right ?_
    rintro rfl
    exact first member
  have solid : isBlank '!' = false := by decide
  have trimmed : trim (a ++ '!' :: b ++ rest) = '!' :: Text.trimEnd (b ++ rest) := by
    rw [List.append_assoc, trim_append_of_solid blank (by rintro c ⟨⟩; exact solid)]
    exact dropEndWhile_append_cons solid [] (b ++ rest)
  rw [ofExpression?, trimmed]
  rfl

theorem ofExpression?_iff {lead name spelling : Text} {steps : List ChainStep}
    (silent : IsGap lead) (named : IsName name) (spells : Spells steps spelling) :
    ofExpression? (lead ++ (name ++ spelling)) = some (.member name :: steps) ↔
      '!' ∉ lead ∧ ∀ step ∈ steps, Legible step := by
  by_cases sign : '!' ∈ lead
  · simp [ofExpression?_sign silent sign, sign]
  · have blank : allBlank lead = true := by
      refine List.all_eq_true.mpr fun c member => (silent c member).resolve_right ?_
      rintro rfl
      exact sign member
    have solid : ∀ c ∈ name, isBlank c = false := fun c member =>
      namesOnly_isNamePart.solid c (named.all c member)
    have trimmed : trim (lead ++ (name ++ spelling)) = name ++ Text.trimEnd spelling := by
      rw [trim_append_of_solid blank,
        trimEnd_append fun c last => solid c (List.mem_of_getLast? last)]
      rw [List.head?_append_of_ne_nil name named.nonempty]
      exact fun c first => solid c (List.mem_of_head? first)
    have behind := spells.trimEnd
    rw [ofExpression?, trimmed, named.name?_append behind.head?, ← behind.stepsFrom_iff]
    simp [sign]

/-- A spelling of a chain is read back as the chain just where every argument is closed by the
    bracket behind it and no `!` stands before the first name. Balanced arguments with no bracket
    of that kind in their literals are closed so. -/
theorem ofExpression?_spelling {lead name spelling : Text} {steps : List ChainStep}
    (silent : IsGap lead) (named : IsName name) (spells : Spells steps spelling) :
    (ofExpression? (lead ++ (name ++ spelling)) = some (.member name :: steps) ↔
      '!' ∉ lead ∧ ∀ step ∈ steps, Legible step) ∧
    ((∀ step ∈ steps, PlainLiterals step) → '!' ∉ lead →
      ofExpression? (lead ++ (name ++ spelling)) = some (.member name :: steps)) := by
  have read := ofExpression?_iff silent named spells
  refine ⟨read, fun plain noSign => read.mpr ⟨noSign, fun step member => ?_⟩⟩
  exact (plain step member).legible

/-- A chain with every kind of step, and a closing bracket in a literal. -/
theorem ofExpression?_spelling_orders :
    IsGap " ".toList ∧ IsName "user".toList ∧ '!' ∉ " ".toList ∧
      ofExpression? " user!?.orders [keys[0]]?.(pick(\"]\"), 1)! .total! ".toList =
        some [.member "user".toList, .member "orders".toList, .index "keys[0]".toList,
          .call "pick(\"]\"), 1".toList, .member "total".toList] := by
  have noGap : IsGap [] := by simp [IsGap]
  have sign : IsGap ['!'] := by simp [IsGap]
  have space : IsGap [' '] := by simp [IsGap, isBlank]
  have signSpace : IsGap ['!', ' '] := by simp [IsGap, isBlank]
  have orders : IsName "orders".toList := by decide
  have total : IsName "total".toList := by decide
  have spells : Spells [.member "orders".toList, .index "keys[0]".toList,
      .call "pick(\"]\"), 1".toList, .member "total".toList]
      "!?.orders [keys[0]]?.(pick(\"]\"), 1)! .total! ".toList :=
    .step sign (.member (.inr rfl) orders) (.step space (.index "keys[0]".toList (.inl rfl))
      (.step noGap (.call "pick(\"]\"), 1".toList (.inr rfl))
        (.step signSpace (.member (.inl rfl) total) (.done signSpace))))
  have keys : Matches '[' ']' "keys[0]".toList :=
    (closing?_iff_matches (by decide) _ []).mp (by decide)
  have pick : Matches '(' ')' "pick(\"]\"), 1".toList :=
    (closing?_iff_matches (by decide) _ []).mp (by decide)
  have named : IsName "user".toList := by decide
  refine ⟨space, named, by decide, (ofExpression?_spelling space named spells).1.mpr ?_⟩
  refine ⟨by decide, fun step member => ?_⟩
  simp only [List.mem_cons, List.not_mem_nil, or_false] at member
  rcases member with rfl | rfl | rfl | rfl
  · trivial
  · exact keys
  · exact pick
  · trivial

/-- A bracket in a literal ends a call early, and what follows in the literal is read as steps. -/
theorem ofExpression?_cuts_literals :
    (Argument (fun _ => True) "').g('".toList ∧
      Spells [.call "').g('".toList] "(').g(')".toList ∧
      ofExpression? ("f".toList ++ "(').g(')".toList) =
        some [.member "f".toList, .call "'".toList, .member "g".toList, .call "'".toList]) ∧
    Argument (fun _ => True) "')'".toList ∧ Spells [.call "')'".toList] "(')')".toList ∧
      ofExpression? ("f".toList ++ "(')')".toList) = none := by
  have noGap : IsGap [] := by simp [IsGap]
  have group : LiteralText singleQuote ").g(".toList :=
    .plain (by decide) (by decide) (.plain (by decide) (by decide)
      (.plain (by decide) (by decide) (.plain (by decide) (by decide) .nil)))
  have closer : LiteralText singleQuote ")".toList := .plain (by decide) (by decide) .nil
  have spells : ∀ arguments, Spells [.call arguments] ('(' :: (arguments ++ [')'])) := by
    intro arguments
    simpa using Spells.step noGap (.call arguments (.inl rfl)) (.done noGap)
  exact ⟨⟨.literal (by decide) group (fun _ _ => trivial) .nil, spells _, by decide⟩,
    .literal (by decide) closer (fun _ _ => trivial) .nil, spells _, by decide⟩

end TemplateTypes.Chain
