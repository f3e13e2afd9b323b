import TemplateTypes.Proofs.TypeText.Nesting

namespace TemplateTypes

open Text

theorem enclosed_append (first last : Char) (inner t : Text) :
    first :: (inner ++ last :: t) = (first :: (inner ++ [last])) ++ t := by
  simp

namespace Scanner

def run (s : Scanner) (t : Text) : Scanner := t.foldl next s

theorem run_cons (s : Scanner) (c : Char) (t : Text) : s.run (c :: t) = (s.next c).run t := rfl

theorem run_append (s : Scanner) (t u : Text) : s.run (t ++ u) = (s.run t).run u :=
  List.foldl_append

theorem next_last (s : Scanner) (c : Char) : (s.next c).last = some c := by
  unfold next
  split
  · rfl
  · repeat' split
    all_goals rfl

theorem run_last (s : Scanner) (t : Text) : (s.run t).last = t.getLast?.or s.last := by
  induction t generalizing s with
  | nil => rfl
  | cons c t ih =>
    rw [run_cons, ih, next_last]
    cases t with
    | nil => rfl
    | cons d t =>
      rw [List.getLast?_cons_cons, List.getLast?_cons]
      rfl

variable {s : Scanner} {c : Char}

theorem next_plain (outside : s.quote = none) (plain : isPlain c = true) :
    s.next c = ⟨s.depth, none, some c⟩ := by
  simp only [isPlain, Bool.and_eq_true, Bool.not_eq_true'] at plain
  obtain ⟨⟨⟨noQuote, noOpener⟩, noCloser⟩, _⟩ := plain
  simp [next, outside, noQuote, noOpener, noCloser]

theorem next_equals (outside : s.quote = none) : s.next '=' = ⟨s.depth, none, some '='⟩ := by
  have facts : isQuote '=' = false ∧ isOpener '=' = false ∧ isCloser '=' = false := by decide
  simp [next, outside, facts]

theorem next_arrow (outside : s.quote = none) (arrow : s.last = some '=') :
    s.next '>' = ⟨s.depth, none, some '>'⟩ := by
  have facts : isQuote '>' = false ∧ isOpener '>' = false := by decide
  simp [next, outside, facts, arrow]

theorem next_quote (outside : s.quote = none) (quote : isQuote c = true) :
    s.next c = ⟨s.depth, some c, some c⟩ := by
  simp [next, outside, quote]

theorem next_opener {closer : Char} (outside : s.quote = none) (pair : (c, closer) ∈ brackets) :
    s.next c = ⟨s.depth + 1, none, some c⟩ := by
  obtain ⟨noQuote, opener, _⟩ := bracket_facts _ pair
  simp [next, outside, noQuote, opener]

theorem next_closer {opener : Char} (outside : s.quote = none) (pair : (opener, c) ∈ brackets)
    (noArrow : s.last ≠ some '=') : s.next c = ⟨s.depth - 1, none, some c⟩ := by
  obtain ⟨_, _, noQuote, noOpener, closer⟩ := bracket_facts _ pair
  simp [next, outside, noQuote, noOpener, closer, noArrow]

theorem next_quoted {quote : Char} (inside : s.quote = some quote)
    (stays : c ≠ quote ∨ s.last = some '\\') : s.next c = ⟨s.depth, some quote, some c⟩ := by
  rcases stays with differs | escaped
  · simp [next, inside, differs]
  · simp [next, inside, escaped]

theorem next_unquote {quote : Char} (inside : s.quote = some quote) (ends : s.last ≠ some '\\') :
    s.next quote = ⟨s.depth, none, some quote⟩ := by
  simp [next, inside, ends]

def Keeps (s : Scanner) (t : Text) : Prop :=
  (s.run t).depth = s.depth ∧ (s.run t).quote = s.quote

theorem Keeps.append {a t : Text} (first : s.Keeps a) (second : (s.run a).Keeps t) :
    s.Keeps (a ++ t) := by
  rw [Keeps, run_append]
  exact ⟨second.1.trans first.1, second.2.trans first.2⟩

/-- No character of the text is one that a search for `target` outside brackets stops at. -/
def Misses (target : Char) : (s : Scanner) → Text → Prop
  | _, [] => True
  | s, c :: rest => (s.seesTop c && c == target) = false ∧ Misses target (s.next c) rest

def Blind : (s : Scanner) → Text → Prop
  | _, [] => True
  | s, c :: rest => s.sees c = false ∧ Blind (s.next c) rest

theorem Blind.misses {target : Char} {t : Text} (blind : s.Blind t) : s.Misses target t := by
  induction t generalizing s with
  | nil => trivial
  | cons c t ih => exact ⟨by simp [seesTop, blind.1], ih blind.2⟩

theorem misses_append {target : Char} {a t : Text} :
    Misses target s (a ++ t) ↔ Misses target s a ∧ Misses target (s.run a) t := by
  induction a generalizing s with
  | nil => simp [Misses, run]
  | cons c a ih =>
    simp only [List.cons_append, Misses, ih, and_assoc]
    rfl

end Scanner

theorem Quoted.keeps {quote : Char} {t : Text} (quoted : Quoted quote t)
    (isQuote : isQuote quote = true) {s : Scanner} (inside : s.quote = some quote) :
    s.Keeps t ∧ s.Blind t := by
  have unseen : ∀ {s : Scanner} (c : Char), s.quote = some quote → s.sees c = false := by
    intro s c inside
    simp [Scanner.sees, inside]
  induction quoted generalizing s with
  | nil => exact ⟨⟨rfl, rfl⟩, trivial⟩
  | @plain c t differs _ _ ih =>
    have step := Scanner.next_quoted inside (.inl differs)
    have here : s.Keeps [c] := by simp [Scanner.Keeps, Scanner.run, step, inside]
    obtain ⟨kept, blind⟩ := ih (s := s.run [c]) (here.2.trans inside)
    exact ⟨here.append kept, unseen c inside, blind⟩
  | @escaped c t _ _ ih =>
    have noBackslash : '\\' ≠ quote := by
      rintro rfl
      exact absurd isQuote (by decide)
    have first := Scanner.next_quoted (s := s) inside (.inl noBackslash)
    have within : (s.next '\\').quote = some quote := by rw [first]
    have second := Scanner.next_quoted (c := c) within (.inr (by rw [first]))
    have here : s.Keeps ['\\', c] := by
      rw [Scanner.Keeps, Scanner.run_cons, Scanner.run_cons, second, first, inside]
      exact ⟨rfl, rfl⟩
    obtain ⟨kept, blind⟩ := ih (s := s.run ['\\', c]) (here.2.trans inside)
    exact ⟨here.append kept, unseen '\\' inside, unseen c within, blind⟩

theorem Quoted.keeps_literal {quote : Char} {t : Text} (quoted : Quoted quote t)
    (isQuote : TemplateTypes.isQuote quote = true) {s : Scanner} (outside : s.quote = none) :
    s.Keeps (quote :: (t ++ [quote])) := by
  have opens := Scanner.next_quote outside isQuote
  have inside : (s.next quote).Keeps t := (quoted.keeps isQuote (by rw [opens])).1
  have unescaped : ((s.next quote).run t).last ≠ some '\\' := by
    rw [Scanner.run_last, opens]
    cases last : t.getLast? with
    | none =>
      rintro same
      obtain rfl := Option.some.inj same
      exact absurd isQuote (by decide)
    | some c =>
      rw [Option.some_or, ← last]
      exact quoted.getLast?_ne
  have closes := Scanner.next_unquote (inside.2.trans (by rw [opens])) unescaped
  rw [Scanner.Keeps, Scanner.run_cons, Scanner.run_append, Scanner.run_cons, closes, outside]
  exact ⟨inside.1.trans (by rw [opens]), rfl⟩

theorem Nested.keeps_group {top : Char → Bool} {opener closer : Char} {t : Text}
    (nested : Nested top t) (pair : (opener, closer) ∈ brackets) {s : Scanner}
    (outside : s.quote = none) (inside : (s.next opener).Keeps t) :
    s.Keeps (opener :: (t ++ [closer])) := by
  have opens := Scanner.next_opener outside pair
  have noArrow : ((s.next opener).run t).last ≠ some '=' := by
    rw [Scanner.run_last, opens]
    cases last : t.getLast? with
    | none =>
      rintro same
      obtain rfl := Option.some.inj same
      have opener : isOpener '=' = true := (bracket_facts _ pair).2.1
      exact absurd opener (by decide)
    | some c =>
      rw [Option.some_or]
      exact fun same => (nested.of_getLast? last).1 (Option.some.inj same)
  have closes := Scanner.next_closer (inside.2.trans (by rw [opens])) pair noArrow
  rw [Scanner.Keeps, Scanner.run_cons, Scanner.run_append, Scanner.run_cons, closes, outside]
  refine ⟨?_, rfl⟩
  show ((s.next opener).run t).depth - 1 = s.depth
  rw [inside.1, opens, Nat.add_sub_cancel]

theorem Nested.keeps {top : Char → Bool} {t : Text} (nested : Nested top t) {s : Scanner}
    (outside : s.quote = none) : s.Keeps t := by
  induction nested generalizing s with
  | nil => exact ⟨rfl, rfl⟩
  | @plain top c t plain _ _ ih =>
    have step := Scanner.next_plain outside plain
    have here : s.Keeps [c] := by simp [Scanner.Keeps, Scanner.run, step, outside]
    exact here.append (ih (here.2.trans outside))
  | @equals top t _ _ _ ih =>
    have step := Scanner.next_equals outside
    have here : s.Keeps ['='] := by simp [Scanner.Keeps, Scanner.run, step, outside]
    exact here.append (ih (here.2.trans outside))
  | @arrow top t _ _ ih =>
    have step : (s.next '=').next '>' = ⟨s.depth, none, some '>'⟩ := by
      rw [Scanner.next_equals outside]
      exact Scanner.next_arrow rfl rfl
    have here : s.Keeps ['=', '>'] := by simp [Scanner.Keeps, Scanner.run, step, outside]
    exact here.append (ih (here.2.trans outside))
  | @group top opener closer inner t pair nested _ ihInner ih =>
    have here := nested.keeps_group pair outside (ihInner (by rw [Scanner.next_opener outside pair]))
    rw [enclosed_append]
    exact here.append (ih (here.2.trans outside))
  | @literal top quote inner t isQuote quoted _ ih =>
    have here := quoted.keeps_literal isQuote outside
    rw [enclosed_append]
    exact here.append (ih (here.2.trans outside))

theorem Nested.run {top : Char → Bool} {t : Text} (nested : Nested top t) {s : Scanner}
    (outside : s.quote = none) : s.run t = ⟨s.depth, none, t.getLast?.or s.last⟩ := by
  have kept := nested.keeps outside
  rw [← kept.1, ← outside, ← kept.2, ← s.run_last t]

theorem Scanner.misses_at {s : Scanner} {c target : Char}
    (unseen : 1 ≤ (s.next c).depth ∨ isQuote c = true ∨ c ≠ target) :
    (s.seesTop c && c == target) = false := by
  rcases unseen with deep | quote | differs
  · have deep : (s.next c).depth ≠ 0 := by omega
    simp [seesTop, deep]
  · simp [seesTop, sees, quote]
  · simp [differs]

theorem Quoted.misses_literal {quote : Char} {t : Text} (quoted : Quoted quote t)
    (isQuote : isQuote quote = true) {s : Scanner} (outside : s.quote = none) (target : Char) :
    s.Misses target (quote :: (t ++ [quote])) := by
  have inside := quoted.keeps isQuote (s := s.next quote) (by rw [Scanner.next_quote outside isQuote])
  refine ⟨Scanner.misses_at (.inr (.inl isQuote)), ?_⟩
  exact Scanner.misses_append.mpr ⟨inside.2.misses, Scanner.misses_at (.inr (.inl isQuote)), trivial⟩

theorem Nested.misses_group {top : Char → Bool} {opener closer : Char} {t : Text}
    (nested : Nested top t) (pair : (opener, closer) ∈ brackets) {s : Scanner}
    (outside : s.quote = none) {target : Char} (inside : (s.next opener).Misses target t)
    (absent : 1 ≤ s.depth ∨ closer ≠ target) : s.Misses target (opener :: (t ++ [closer])) := by
  have opens := Scanner.next_opener outside pair
  have kept := nested.keeps_group pair outside (nested.keeps (by rw [opens]))
  have behind : (((s.next opener).run t).next closer).depth = s.depth := by
    have depth := kept.1
    rwa [Scanner.run_cons, Scanner.run_append] at depth
  refine ⟨Scanner.misses_at (.inl (by rw [opens]; exact Nat.le_add_left 1 s.depth)), ?_⟩
  refine Scanner.misses_append.mpr ⟨inside, Scanner.misses_at ?_, trivial⟩
  rw [behind]
  exact absent.imp_right .inr

/-- A search outside brackets finds nothing inside brackets, and no separator that the text has
    none of outside. -/
theorem Nested.misses {top : Char → Bool} {t : Text} (nested : Nested top t) (target : Char)
    {s : Scanner} (outside : s.quote = none)
    (absent : 1 ≤ s.depth ∨ top target = false ∧ isPlain target = true) : s.Misses target t := by
  have special : ∀ {d : Nat} {c : Char} {top : Char → Bool}, isPlain c = false →
      1 ≤ d ∨ top target = false ∧ isPlain target = true → 1 ≤ d ∨ c ≠ target := by
    rintro d c top special (deep | ⟨_, separates⟩)
    · exact .inl deep
    · right
      rintro rfl
      rw [separates] at special
      cases special
  induction nested generalizing s with
  | nil => trivial
  | @plain top c t plain admitted _ ih =>
    have step := Scanner.next_plain outside plain
    refine ⟨Scanner.misses_at ?_, ih (by rw [step]) (by rw [step]; exact absent)⟩
    rw [step]
    refine absent.imp_right fun ⟨absent, _⟩ => .inr ?_
    rintro rfl
    rw [admitted] at absent
    cases absent
  | @equals top t _ _ _ ih =>
    have step := Scanner.next_equals outside
    refine ⟨Scanner.misses_at ?_, ih (by rw [step]) (by rw [step]; exact absent)⟩
    rw [step]
    exact (special (by decide) absent).imp_right .inr
  | @arrow top t _ _ ih =>
    have first := Scanner.next_equals outside
    have second : (s.next '=').next '>' = ⟨s.depth, none, some '>'⟩ := by
      rw [first]
      exact Scanner.next_arrow rfl rfl
    refine ⟨Scanner.misses_at ?_, Scanner.misses_at ?_,
      ih (by rw [second]) (by rw [second]; exact absent)⟩
    · rw [first]
      exact (special (by decide) absent).imp_right .inr
    · rw [second]
      exact (special (by decide) absent).imp_right .inr
  | @group top opener closer inner t pair nested _ ihInner ih =>
    have opens := Scanner.next_opener outside pair
    have inside := ihInner (s := s.next opener) (by rw [opens])
      (.inl (by rw [opens]; exact Nat.le_add_left 1 s.depth))
    have kept := nested.keeps_group pair outside (nested.keeps (by rw [opens]))
    have notPlain : isPlain closer = false := by
      simp [isPlain, (bracket_facts _ pair).2.2.2.2]
    rw [enclosed_append]
    exact Scanner.misses_append.mpr ⟨nested.misses_group pair outside inside (special notPlain absent),
      ih (kept.2.trans outside) (by rw [kept.1]; exact absent)⟩
  | @literal top quote inner t isQuote quoted _ ih =>
    have kept := quoted.keeps_literal isQuote outside
    rw [enclosed_append]
    exact Scanner.misses_append.mpr ⟨quoted.misses_literal isQuote outside target,
      ih (kept.2.trans outside) (by rw [kept.1]; exact absent)⟩

/-- A search for an equals sign passes over a text that has neither one nor an arrow outside
    brackets and literals. -/
theorem Nested.misses_equals {top : Char → Bool} {t : Text} (nested : Nested top t)
    (noEquals : top '=' = false) (noArrow : top '>' = false) {s : Scanner}
    (outside : s.quote = none) : s.Misses '=' t := by
  induction nested generalizing s with
  | nil => trivial
  | @plain top c t plain _ _ ih =>
    have step := Scanner.next_plain outside plain
    have other : c ≠ '=' := by
      rintro rfl
      cases plain
    exact ⟨Scanner.misses_at (.inr (.inr other)), ih noEquals noArrow (by rw [step])⟩
  | equals admitted _ _ _ => exact absurd admitted (by simp [noEquals])
  | arrow admitted _ _ => exact absurd admitted (by simp [noArrow])
  | @group top opener closer inner t pair nested _ _ ih =>
    have opens := Scanner.next_opener outside pair
    have inside := nested.misses '=' (s := s.next opener) (by rw [opens])
      (.inl (by rw [opens]; exact Nat.le_add_left 1 s.depth))
    have kept := nested.keeps_group pair outside (nested.keeps (by rw [opens]))
    have facts : ∀ pair ∈ brackets, pair.2 ≠ '=' := by decide
    rw [enclosed_append]
    exact Scanner.misses_append.mpr
      ⟨nested.misses_group pair outside inside (.inr (facts _ pair)),
        ih noEquals noArrow (kept.2.trans outside)⟩
  | @literal top quote inner t isQuote quoted _ ih =>
    have kept := quoted.keeps_literal isQuote outside
    rw [enclosed_append]
    exact Scanner.misses_append.mpr
      ⟨quoted.misses_literal isQuote outside '=', ih noEquals noArrow (kept.2.trans outside)⟩

theorem Nested.seesTop_equals {top : Char → Bool} {t : Text} (nested : Nested top t) :
    (Scanner.start.run t).seesTop '=' = true := by
  rw [nested.run rfl]
  rfl

theorem findTopFrom_append {target : Char} {s : Scanner} {a : Text} (misses : s.Misses target a)
    (t : Text) :
    findTopFrom target s (a ++ t) = (findTopFrom target (s.run a) t).map (· + a.length) := by
  induction a generalizing s with
  | nil => simp [Scanner.run]
  | cons c a ih =>
    rw [List.cons_append, findTopFrom, if_neg (by simp [misses.1]), ih misses.2,
      Scanner.run_cons, Option.map_map]
    rfl

theorem findTopFrom_of_misses {target : Char} {s : Scanner} {t : Text}
    (misses : s.Misses target t) : findTopFrom target s t = none := by
  have whole := findTopFrom_append misses []
  rwa [List.append_nil] at whole

theorem Nested.arrow_of_findTopFrom {top : Char → Bool} {t : Text} (nested : Nested top t)
    (noEquals : top '=' = false) {s : Scanner} (outside : s.quote = none) {i : Nat}
    (found : findTopFrom '=' s t = some i) : t[i + 1]? = some '>' := by
  have behind : ∀ {s : Scanner} {a t : Text} {i : Nat}, s.Misses '=' a →
      findTopFrom '=' s (a ++ t) = some i →
      (∀ j, findTopFrom '=' (s.run a) t = some j → t[j + 1]? = some '>') →
      (a ++ t)[i + 1]? = some '>' := by
    intro s a t i misses found rest
    rw [findTopFrom_append misses] at found
    obtain ⟨j, later, rfl⟩ := Option.map_eq_some_iff.mp found
    rw [List.getElem?_append_right (by omega), ← rest j later]
    congr 1
    omega
  induction nested generalizing s i with
  | nil => cases found
  | @plain top c t plain _ _ ih =>
    have step := Scanner.next_plain outside plain
    have other : c ≠ '=' := by
      rintro rfl
      cases plain
    have misses : s.Misses '=' [c] := ⟨Scanner.misses_at (.inr (.inr other)), trivial⟩
    exact behind misses found fun j => ih noEquals (by rw [Scanner.run_cons, step]; rfl)
  | @equals top t admitted _ _ _ =>
    rw [noEquals] at admitted
    cases admitted
  | @arrow top t _ _ ih =>
    have first := Scanner.next_equals outside
    have second : (s.next '=').next '>' = ⟨s.depth, none, some '>'⟩ := by
      rw [first]
      exact Scanner.next_arrow rfl rfl
    by_cases here : (s.seesTop '=' && '=' == '=') = true
    · rw [findTopFrom, if_pos here] at found
      cases found
      rfl
    · have misses : s.Misses '=' ['=', '>'] :=
        ⟨by simpa using here, Scanner.misses_at (.inr (.inr (by decide))), trivial⟩
      exact behind misses found fun j =>
        ih noEquals (by rw [Scanner.run_cons, Scanner.run_cons, second]; rfl)
  | @group top opener closer inner t pair nested _ _ ih =>
    have opens := Scanner.next_opener outside pair
    have deep : 1 ≤ (s.next opener).depth := by
      rw [opens]
      exact Nat.le_add_left 1 s.depth
    have inside := nested.misses '=' (s := s.next opener) (by rw [opens]) (.inl deep)
    have kept := nested.keeps_group pair outside (nested.keeps (by rw [opens]))
    have facts : ∀ pair ∈ brackets, pair.2 ≠ '=' := by decide
    rw [enclosed_append] at found ⊢
    exact behind (nested.misses_group pair outside inside (.inr (facts _ pair))) found
      fun j => ih noEquals (kept.2.trans outside)
  | @literal top quote inner t isQuote quoted _ ih =>
    have kept := quoted.keeps_literal isQuote outside
    rw [enclosed_append] at found ⊢
    exact behind (quoted.misses_literal isQuote outside '=') found
      fun j => ih noEquals (kept.2.trans outside)

theorem topPiecesFrom_ne_nil (separator : Char) (s : Scanner) (t : Text) :
    topPiecesFrom separator s t ≠ [] := by
  cases t with
  | nil => simp [topPiecesFrom]
  | cons c t =>
    unfold topPiecesFrom
    split
    · simp
    · split <;> simp

namespace Scanner

/-- No character of the text is a separator, `next` being what follows the text. -/
def Whole (separator : Char) (next : Option Char) : (s : Scanner) → Text → Prop
  | _, [] => True
  | s, c :: rest =>
    s.cuts separator c (rest ++ next.toList) = false ∧ Whole separator next (s.next c) rest

variable {s : Scanner} {separator : Char}

theorem seesTop_of_cuts {c : Char} {rest : Text} (cuts : s.cuts separator c rest = true) :
    c = separator ∧ s.seesTop c = true := by
  simp only [Scanner.cuts, Bool.and_eq_true, beq_iff_eq] at cuts
  exact cuts.1.symm

theorem cuts_congr {t u : Text} (same : t.head? = u.head?) (c : Char) :
    s.cuts separator c t = s.cuts separator c u := by
  unfold cuts
  rw [same]

theorem Misses.whole {t : Text} (misses : s.Misses separator t) (next : Option Char) :
    s.Whole separator next t := by
  induction t generalizing s with
  | nil => trivial
  | cons c t ih => exact ⟨by simp [cuts, misses.1], ih misses.2⟩

theorem head?_append_next (a t : Text) (next : Option Char) :
    (a ++ t ++ next.toList).head? = (a ++ (t.head?.or next).toList).head? := by
  cases a <;> cases t <;> cases next <;> rfl

theorem whole_append {next : Option Char} {a t : Text} :
    Whole separator next s (a ++ t) ↔
      Whole separator (t.head?.or next) s a ∧ Whole separator next (s.run a) t := by
  induction a generalizing s with
  | nil => simp [Whole, run]
  | cons c a ih =>
    have same : s.cuts separator c _ = s.cuts separator c _ :=
      cuts_congr (head?_append_next a t next) c
    simp only [List.cons_append, Whole, same, ih, and_assoc]
    rfl

end Scanner

theorem count_flatten_pieces {separator c : Char} (other : c ≠ separator) (s : Scanner)
    (t : Text) : (topPiecesFrom separator s t).flatten.count c = t.count c := by
  fun_induction topPiecesFrom separator s t with
  | case1 s => rfl
  | case2 s d rest cut ih =>
    have same := (Scanner.seesTop_of_cuts cut).1
    rw [List.flatten_cons, List.nil_append, ih, same, List.count_cons_of_ne other.symm]
  | case3 s d rest cut none ih => exact absurd none (topPiecesFrom_ne_nil separator _ rest)
  | case4 s d rest cut piece more found ih =>
    rw [found] at ih
    rw [List.flatten_cons, List.cons_append, ← List.flatten_cons, List.count_cons, ih,
      List.count_cons]

theorem topPiecesFrom_whole {separator : Char} {s : Scanner} {a t : Text}
    (whole : s.Whole separator t.head? a) :
    ∃ piece more, topPiecesFrom separator (s.run a) t = piece :: more ∧
      topPiecesFrom separator s (a ++ t) = (a ++ piece) :: more := by
  induction a generalizing s with
  | nil =>
    cases cut : topPiecesFrom separator s t with
    | nil => exact absurd cut (topPiecesFrom_ne_nil separator s t)
    | cons piece more => exact ⟨piece, more, cut, cut⟩
  | cons c a ih =>
    obtain ⟨piece, more, rest, pieces⟩ := ih whole.2
    refine ⟨piece, more, rest, ?_⟩
    have stays : s.cuts separator c (a ++ t) = false := by
      rw [← whole.1]
      apply Scanner.cuts_congr
      cases a <;> cases t <;> rfl
    rw [List.cons_append, topPiecesFrom, if_neg (by simp [stays]), pieces]
    rfl

theorem topPiecesFrom_of_whole {separator : Char} {s : Scanner} {t : Text}
    (whole : s.Whole separator none t) : topPiecesFrom separator s t = [t] := by
  obtain ⟨piece, more, rest, pieces⟩ := topPiecesFrom_whole (t := []) whole
  cases rest
  simpa using pieces

theorem topPiecesFrom_cut {separator : Char} {s : Scanner} {a t : Text}
    (whole : s.Whole separator (some separator) a)
    (cuts : (s.run a).cuts separator separator t = true) :
    topPiecesFrom separator s (a ++ separator :: t) =
      a :: topPiecesFrom separator ((s.run a).next separator) t := by
  obtain ⟨piece, more, rest, pieces⟩ := topPiecesFrom_whole (t := separator :: t) whole
  rw [topPiecesFrom, if_pos cuts] at rest
  cases rest
  simpa using pieces

theorem topPiecesFrom_cases (separator : Char) (s : Scanner) (t : Text) :
    s.Whole separator none t ∨
      ∃ a rest, t = a ++ separator :: rest ∧ s.Whole separator (some separator) a ∧
        (s.run a).cuts separator separator rest = true := by
  induction t generalizing s with
  | nil => exact .inl trivial
  | cons c t ih =>
    cases cuts : s.cuts separator c t with
    | true =>
      obtain rfl := (Scanner.seesTop_of_cuts cuts).1
      exact .inr ⟨[], t, rfl, trivial, cuts⟩
    | false =>
      rcases ih (s.next c) with whole | ⟨a, rest, rfl, whole, ends⟩
      · exact .inl ⟨by simpa using cuts, whole⟩
      · have stays : s.cuts separator c (a ++ [separator]) = false := by
          rw [← cuts]
          apply Scanner.cuts_congr
          cases a <;> rfl
        exact .inr ⟨c :: a, rest, rfl, ⟨stays, whole⟩, ends⟩

namespace Scanner

/-- The search for a matching parenthesis goes on behind the text as it came to it. -/
def PassesParens (s : Scanner) (t : Text) : Prop :=
  ∀ depth : Int, 1 ≤ depth → ∀ u,
    matchingParenFrom s depth (t ++ u) = (matchingParenFrom (s.run t) depth u).map (· + t.length)

variable {s : Scanner}

theorem PassesParens.append {a t : Text} (first : s.PassesParens a)
    (second : (s.run a).PassesParens t) : s.PassesParens (a ++ t) := by
  intro depth inside u
  rw [List.append_assoc, first depth inside, second depth inside, run_append, Option.map_map]
  congr 1
  funext n
  simp only [Function.comp_apply, List.length_append]
  omega

theorem passesParens_nil : s.PassesParens [] := by
  intro depth _ u
  simp [run]

theorem passesParens_single {c : Char} (other : (s.sees c && (c == '(' || c == ')')) = false) :
    s.PassesParens [c] := by
  intro depth _ u
  cases sees : s.sees c <;> simp_all [matchingParenFrom, run]

theorem Blind.passesParens {t : Text} (blind : s.Blind t) : s.PassesParens t := by
  induction t generalizing s with
  | nil => exact passesParens_nil
  | cons c t ih => exact (passesParens_single (by simp [blind.1])).append (ih blind.2)

theorem sees_bracket {c : Char} (outside : s.quote = none) (noQuote : isQuote c = false) :
    s.sees c = true := by
  simp [sees, outside, noQuote]

theorem passesParens_parens {t : Text} (outside : s.quote = none) (kept : (s.next '(').Keeps t)
    (inside : (s.next '(').PassesParens t) : s.PassesParens ('(' :: (t ++ [')'])) := by
  have within : ((s.next '(').run t).quote = none :=
    kept.2.trans (by rw [next_opener outside (show ('(', ')') ∈ brackets by decide)])
  have opens : s.sees '(' = true := sees_bracket outside (by decide)
  have closes : ((s.next '(').run t).sees ')' = true := sees_bracket within (by decide)
  intro depth positive u
  have inner := inside (depth + 1) (by omega) (')' :: u)
  have deep : depth + 1 ≠ 1 := by omega
  have behind : matchingParenFrom ((s.next '(').run t) (depth + 1) (')' :: u) =
      (matchingParenFrom (s.run ('(' :: (t ++ [')']))) depth u).map (· + 1) := by
    simp [matchingParenFrom, closes, deep, run_cons, run_append]
    rfl
  rw [← enclosed_append, matchingParenFrom, if_pos (by rw [opens]; rfl), inner, behind,
    Option.map_map, Option.map_map]
  congr 1
  funext n
  simp only [Function.comp_apply, List.length_cons, List.length_append, List.length_nil]
  omega

theorem passesParens_around {first last : Char} {t : Text}
    (noParens : ∀ c ∈ [first, last], c ≠ '(' ∧ c ≠ ')')
    (inside : (s.next first).PassesParens t) : s.PassesParens (first :: (t ++ [last])) := by
  have single : ∀ {s : Scanner}, ∀ c ∈ [first, last], s.PassesParens [c] := by
    intro s c member
    exact passesParens_single (by simp [noParens c member])
  have opens : s.PassesParens [first] := single first (by simp)
  exact opens.append (inside.append (single last (by simp)))

end Scanner

theorem Nested.passesParens {top : Char → Bool} {t : Text} (nested : Nested top t) {s : Scanner}
    (outside : s.quote = none) : s.PassesParens t := by
  have other : ∀ {s : Scanner} {c : Char}, c ≠ '(' → c ≠ ')' → s.PassesParens [c] := by
    intro s c noOpen noClose
    exact Scanner.passesParens_single (by simp [noOpen, noClose])
  induction nested generalizing s with
  | nil => exact Scanner.passesParens_nil
  | @plain top c t plain admitted _ ih =>
    have step := Scanner.next_plain outside plain
    have noOpen : c ≠ '(' := by
      rintro rfl
      cases plain
    have noClose : c ≠ ')' := by
      rintro rfl
      cases plain
    exact (other noOpen noClose).append (ih (by rw [Scanner.run_cons, step]; rfl))
  | @equals top t _ _ _ ih =>
    have step := Scanner.next_equals outside
    exact (other (by decide) (by decide)).append (ih (by rw [Scanner.run_cons, step]; rfl))
  | @arrow top t _ _ ih =>
    have step : (s.next '=').next '>' = ⟨s.depth, none, some '>'⟩ := by
      rw [Scanner.next_equals outside]
      exact Scanner.next_arrow rfl rfl
    have rest := ih (s := s.run ['=', '>']) (by rw [Scanner.run_cons, Scanner.run_cons, step]; rfl)
    have first : s.PassesParens ['='] := other (by decide) (by decide)
    exact first.append ((other (by decide) (by decide)).append rest)
  | @group top opener closer inner t pair nested _ ihInner ih =>
    have inside : (s.next opener).quote = none := by rw [Scanner.next_opener outside pair]
    have here := nested.keeps_group pair outside (nested.keeps inside)
    rw [enclosed_append]
    refine Scanner.PassesParens.append ?_ (ih (here.2.trans outside))
    by_cases parens : (opener, closer) = ('(', ')')
    · obtain ⟨rfl, rfl⟩ := Prod.mk.inj parens
      exact Scanner.passesParens_parens outside (nested.keeps inside) (ihInner inside)
    · have others : ∀ pair ∈ brackets, pair ≠ ('(', ')') →
          (pair.1 ≠ '(' ∧ pair.1 ≠ ')') ∧ pair.2 ≠ '(' ∧ pair.2 ≠ ')' := by decide
      have noParens : ∀ c ∈ [opener, closer], c ≠ '(' ∧ c ≠ ')' := by
        simpa using others _ pair parens
      exact Scanner.passesParens_around noParens (ihInner inside)
  | @literal top quote inner t isQuote quoted _ ih =>
    have here := quoted.keeps_literal isQuote outside
    have inside : (s.next quote).quote = some quote := by rw [Scanner.next_quote outside isQuote]
    have noParens : ∀ c ∈ [quote, quote], c ≠ '(' ∧ c ≠ ')' := by
      have differs : quote ≠ '(' ∧ quote ≠ ')' := by
        constructor <;> rintro rfl <;> exact absurd isQuote (by decide)
      simpa using differs
    rw [enclosed_append]
    refine Scanner.PassesParens.append ?_ (ih (here.2.trans outside))
    exact Scanner.passesParens_around noParens (quoted.keeps isQuote inside).2.passesParens

theorem Nested.matchingParenFrom {top : Char → Bool} {t : Text} (nested : Nested top t)
    {s : Scanner} (outside : s.quote = none) (u : Text) :
    matchingParenFrom s 0 ('(' :: (t ++ ')' :: u)) = some (t.length + 1) := by
  have opens := Scanner.next_opener outside (show ('(', ')') ∈ brackets by decide)
  have inside : (s.next '(').quote = none := by rw [opens]
  have within := (nested.keeps inside).2.trans inside
  have seesOpener : s.sees '(' = true := Scanner.sees_bracket outside (by decide)
  have seesCloser : ((s.next '(').run t).sees ')' = true := Scanner.sees_bracket within (by decide)
  have passed := nested.passesParens inside 1 (by omega) (')' :: u)
  have found : TemplateTypes.matchingParenFrom ((s.next '(').run t) 1 (')' :: u) = some 0 := by
    simp [TemplateTypes.matchingParenFrom, seesCloser]
  rw [TemplateTypes.matchingParenFrom, if_pos (by rw [seesOpener]; rfl), Int.zero_add, passed, found]
  simp

end TemplateTypes
