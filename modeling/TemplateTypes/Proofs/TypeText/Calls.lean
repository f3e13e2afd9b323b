import TemplateTypes.Proofs.TypeText.Operands
import Mathlib.Data.List.Flatten

namespace TemplateTypes.TypeText

open Text

def functionHead (parameters : Text) : Text := '(' :: (parameters ++ [')', ' '])

def functionText (parameters result : Text) : Text :=
  functionHead parameters ++ '=' :: '>' :: ' ' :: result

/-- The members of a result that are left in the type of its function: the first one, which the
    arrow stands in front of, and of the others those that hold something and are not nullish. -/
def keptMembers (result : Text) : List Text :=
  match (topPiecesFrom '|' .start result).map trim with
  | [] => []
  | first :: more => first :: (more.filter (!·.isEmpty)).filter (!isNullish ·)

def rejoined (result : Text) : Text := unionText (keptMembers result)

abbrev HasArrow (t : Text) : Prop := ['=', '>'] <:+: t

/-- A result that a call gives as it is declared: no arrow in it, no parenthesis at its end, and
    its members as they are spelled when they are joined again without those that go. -/
structure Outlasts (result : Text) : Prop where
  noArrow : ¬ HasArrow result
  noParen : (trim result).getLast? ≠ some ')'
  spelled : trim (rejoined result) = trim result

/-- What is left of a type without its nullish members and the parentheses at its ends is a signal
    with this value. -/
def ReadAsSignal (t value : Text) : Prop :=
  ∃ name arguments others, generic? (bare t) = some (name, arguments) ∧ name ∈ signalNames ∧
    splitTop ',' arguments = value :: others

theorem hasArrow_append_cons {a b : Text} {c : Char} (other : c ≠ '=' ∧ c ≠ '>')
    (within : HasArrow (a ++ c :: b)) : HasArrow a ∨ HasArrow b := by
  induction a with
  | nil =>
    rcases List.infix_cons_iff.mp within with here | later
    · exact absurd (List.cons_prefix_cons.mp here).1.symm other.1
    · exact .inr later
  | cons d a ih =>
    rcases List.infix_cons_iff.mp within with here | later
    · obtain ⟨rfl, next⟩ := List.cons_prefix_cons.mp here
      cases a with
      | nil => exact absurd (List.cons_prefix_cons.mp next).1.symm other.2
      | cons e a =>
        obtain ⟨rfl, _⟩ := List.cons_prefix_cons.mp next
        exact .inl ⟨[], a, rfl⟩
    · exact (ih later).imp_left List.infix_cons

theorem hasArrow_of_append {a r : Text} (silent : ∀ c ∈ r, c ≠ '=' ∧ c ≠ '>')
    (within : HasArrow (a ++ r)) : HasArrow a := by
  cases r with
  | nil => rwa [List.append_nil] at within
  | cons c r =>
    refine (hasArrow_append_cons (silent c List.mem_cons_self) within).resolve_right fun later => ?_
    have sign := later.subset (show '>' ∈ ['=', '>'] by simp)
    exact (silent '>' (List.mem_cons_of_mem c sign)).2 rfl

theorem silent_of_isBlank {c : Char} (blank : isBlank c = true) : c ≠ '=' ∧ c ≠ '>' :=
  ⟨ne_of_isBlank blank (by decide), ne_of_isBlank blank (by decide)⟩

theorem hasArrow_trim {t : Text} (within : HasArrow t) : HasArrow (trim t) := by
  obtain ⟨a, b, before, behind, text⟩ := exists_blanks_trim t
  rw [text, ← List.append_assoc] at within
  have front := hasArrow_of_append (fun c member =>
    silent_of_isBlank (List.all_eq_true.mp behind c member)) within
  clear text within
  induction a with
  | nil => exact front
  | cons c a ih =>
    rw [allBlank_cons, Bool.and_eq_true] at before
    rcases List.infix_cons_iff.mp front with here | later
    · exact absurd (List.cons_prefix_cons.mp here).1.symm (silent_of_isBlank before.1).1
    · exact ih before.2 later

theorem hasArrow_unionText {members : List Text} (within : HasArrow (unionText members)) :
    ∃ member ∈ members, HasArrow member := by
  induction members with
  | nil => exact absurd within (by decide)
  | cons first more ih =>
    cases more with
    | nil => exact ⟨first, List.mem_cons_self, within⟩
    | cons second more =>
      have text : unionText (first :: second :: more) =
          first ++ ' ' :: '|' :: ([] ++ ' ' :: unionText (second :: more)) := by
        rw [unionText_cons_cons]
        rfl
      rw [text] at within
      rcases hasArrow_append_cons (by decide) within with here | later
      · exact ⟨first, List.mem_cons_self, here⟩
      · have later := (List.infix_cons_iff.mp later).resolve_left fun bar =>
          absurd (List.cons_prefix_cons.mp bar).1 (by decide)
        have rest := (hasArrow_append_cons (by decide) later).resolve_left (by decide)
        obtain ⟨member, among, has⟩ := ih rest
        exact ⟨member, List.mem_cons_of_mem first among, has⟩

theorem behind_last_arrow {a b t u : Text} (same : a ++ '=' :: '>' :: t = b ++ '=' :: '>' :: u)
    (left : ¬ HasArrow t) (right : ¬ HasArrow u) : t = u := by
  have place := findLast?_arrow a left
  rw [same, findLast?_arrow b right] at place
  obtain ⟨_, rest⟩ := List.append_inj same (Option.some.inj place).symm
  simpa using rest

theorem findLast?_arrow_eq_some {t : Text} {i : Nat} (found : findLast? ['=', '>'] t = some i) :
    ∃ a rest, t = a ++ '=' :: '>' :: rest ∧ a.length = i ∧ ¬ HasArrow rest := by
  induction t generalizing i with
  | nil => cases found
  | cons c t ih =>
    rw [findLast?] at found
    cases later : findLast? ['=', '>'] t with
    | some j =>
      rw [later] at found
      cases found
      obtain ⟨a, rest, rfl, rfl, noArrow⟩ := ih later
      exact ⟨c :: a, rest, rfl, rfl, noArrow⟩
    | none =>
      rw [later] at found
      obtain ⟨here, first⟩ := Option.ite_none_right_eq_some.mp found
      cases first
      obtain ⟨rest, text⟩ := List.isPrefixOf_iff_prefix.mp here
      obtain ⟨rfl, rfl⟩ := List.cons.inj text
      refine ⟨[], rest, rfl, rfl, fun arrow => ?_⟩
      exact (findLast?_eq_none_iff (by decide)).mp later (List.infix_cons arrow)

theorem arrowResult?_eq_some {t value : Text} (found : arrowResult? t = some value) :
    ∃ a rest, t = a ++ '=' :: '>' :: rest ∧ ¬ HasArrow rest ∧ value = trim rest := by
  unfold arrowResult? at found
  split at found
  · rename_i i last
    obtain ⟨a, rest, rfl, place, noArrow⟩ := findLast?_arrow_eq_some last
    obtain ⟨_, taken⟩ := Option.ite_none_right_eq_some.mp found
    have behind : (a ++ '=' :: '>' :: rest).drop (i + 3) = rest := by
      have text : a ++ '=' :: '>' :: rest = (a ++ ['=', '>']) ++ rest := by simp
      have length : i + 3 = (a ++ ['=', '>']).length := by simp [place]
      rw [text, length, List.drop_left]
    rw [behind] at taken
    exact ⟨a, rest, rfl, noArrow, (Option.some.inj taken).symm⟩
  · cases found

theorem nested_functionHead {parameters : Text} (balanced : Balanced parameters) :
    Nested (· != '|') (functionHead parameters ++ ['=', '>', ' ']) := by
  have arrow : Nested (· != '|') [' ', '=', '>', ' '] :=
    .plain (by decide) (by decide) (.arrow (by decide) (.plain (by decide) (by decide) .nil))
  have group : Nested (· != '|') ('(' :: (parameters ++ ')' :: [' ', '=', '>', ' '])) :=
    .group (by decide) balanced arrow
  simpa [functionHead] using group

theorem trim_functionHead (parameters piece : Text) :
    ∃ gap, allBlank gap = true ∧ trim (functionHead parameters ++ ['=', '>', ' '] ++ piece) =
      functionHead parameters ++ '=' :: '>' :: (gap ++ trim piece) := by
  obtain ⟨gap, blank, ends⟩ := exists_blanks_trimEnd (' ' :: piece)
  have same : trim (' ' :: piece) = trim piece := rfl
  have solid : isBlank '>' = false := by decide
  have kept : trimEnd (functionHead parameters ++ ['='] ++ '>' :: ' ' :: piece) = _ :=
    dropEndWhile_append_cons solid (functionHead parameters ++ ['=']) (' ' :: piece)
  refine ⟨gap, blank, ?_⟩
  rw [← same, ← ends]
  -- The first character is the parenthesis, so nothing is trimmed in front.
  show trimEnd (functionHead parameters ++ ['=', '>', ' '] ++ piece) = _
  simpa [trimEnd] using kept

/-- No bar stands outside brackets up to the result, so the first member begins with the parameters
    and all others are members of the result. -/
theorem members_functionText {parameters : Text} (balanced : Balanced parameters) (result : Text) :
    ∃ gap first more, allBlank gap = true ∧ keptMembers result = first :: more ∧
      (splitTop '|' (functionText parameters result)).filter (!isNullish ·) =
        (functionHead parameters ++ '=' :: '>' :: (gap ++ first)) :: more := by
  have front := nested_functionHead balanced
  have text : functionText parameters result =
      functionHead parameters ++ ['=', '>', ' '] ++ result := by simp [functionText]
  have fresh : (Scanner.start.run (functionHead parameters ++ ['=', '>', ' '])).Fresh result := by
    rw [front.run rfl]
    constructor <;> simp [Scanner.start]
  have misses := front.misses '|' (s := .start) rfl (.inr (by decide))
  obtain ⟨piece, more, rest, pieces⟩ := topPiecesFrom_whole (misses.whole result.head?)
  rw [fresh.topPiecesFrom_eq] at rest
  obtain ⟨gap, blank, first⟩ := trim_functionHead parameters piece
  refine ⟨gap, trim piece, ((more.map trim).filter (!·.isEmpty)).filter (!isNullish ·), blank, ?_,
    ?_⟩
  · rw [keptMembers, rest]
    rfl
  · -- The first member begins with a parenthesis.
    have begins (tail : Text) : (!(functionHead parameters ++ tail).isEmpty) = true ∧
        (!isNullish (functionHead parameters ++ tail)) = true := ⟨rfl, rfl⟩
    rw [splitTop, text, pieces, List.map_cons, first, List.filter_cons, if_pos (begins _).1,
      List.filter_cons, if_pos (begins _).2]

theorem stripNullish_functionText {parameters : Text} (balanced : Balanced parameters)
    (result : Text) :
    Trimmed (stripNullish (functionText parameters result)) ∧
      ∃ gap, allBlank gap = true ∧ stripNullish (functionText parameters result) =
        functionHead parameters ++ '=' :: '>' :: (gap ++ rejoined result) := by
  obtain ⟨gap, first, more, blank, kept, members⟩ := members_functionText balanced result
  have stripped : stripNullish (functionText parameters result) =
      unionText ((splitTop '|' (functionText parameters result)).filter (!isNullish ·)) := by
    rw [stripNullish, members]
  constructor
  · rw [stripped]
    exact trimmed_unionText ((areParts_splitTop isSeparator_bar _).sublist List.filter_sublist)
  · refine ⟨gap, blank, ?_⟩
    have text : functionHead parameters ++ '=' :: '>' :: (gap ++ first) =
        (functionHead parameters ++ '=' :: '>' :: gap) ++ first := by simp
    rw [stripped, members, text, unionText, join_append, rejoined, kept, unionText]
    simp

theorem mem_keptMembers {result member : Text} (kept : member ∈ keptMembers result) :
    ∃ piece ∈ topPiecesFrom '|' .start result, trim piece = member := by
  unfold keptMembers at kept
  cases pieces : topPiecesFrom '|' .start result with
  | nil => simp [pieces] at kept
  | cons first more =>
    rw [pieces, List.map_cons] at kept
    rcases List.mem_cons.mp kept with rfl | later
    · exact ⟨first, List.mem_cons_self, rfl⟩
    · have among := (List.mem_filter.mp (List.mem_filter.mp later).1).1
      obtain ⟨piece, cut, rfl⟩ := List.mem_map.mp among
      exact ⟨piece, List.mem_cons_of_mem first cut, rfl⟩

theorem hasArrow_of_rejoined {result : Text}
    (within : HasArrow (rejoined result)) : HasArrow result := by
  obtain ⟨member, kept, arrow⟩ := hasArrow_unionText within
  obtain ⟨piece, cut, rfl⟩ := mem_keptMembers kept
  have part := (isInfix_topPiecesFrom '|' .start result).2 piece cut
  exact (arrow.trans (isInfix_trim piece)).trans part

theorem count_unionText {c : Char} (other : c ∉ " | ".toList) (members : List Text) :
    (unionText members).count c = members.flatten.count c := by
  have none := List.count_eq_zero.mpr other
  induction members with
  | nil => rfl
  | cons first more ih =>
    cases more with
    | nil => simp [unionText, join]
    | cons second more =>
      rw [List.flatten_cons, List.count_append, ← ih, unionText_cons_cons, List.count_append,
        List.count_append, none, Nat.zero_add]

theorem flatten_trim_sublist (pieces : List Text) :
    (pieces.map trim).flatten.Sublist pieces.flatten := by
  induction pieces with
  | nil => exact List.nil_sublist _
  | cons piece pieces ih => exact (isInfix_trim piece).sublist.append ih

theorem count_rejoined_le (result : Text) :
    (rejoined result).count ')' ≤ result.count ')' := by
  have shown : (keptMembers result).Sublist ((topPiecesFrom '|' .start result).map trim) := by
    unfold keptMembers
    split
    · exact List.nil_sublist _
    · rename_i first more pieces
      rw [pieces]
      exact (List.filter_sublist.trans List.filter_sublist).cons_cons first
  calc (rejoined result).count ')'
    _ = (keptMembers result).flatten.count ')' := count_unionText (by decide) _
    _ ≤ (topPiecesFrom '|' .start result).flatten.count ')' :=
      (shown.flatten.trans (flatten_trim_sublist _)).count_le ')'
    _ = result.count ')' := count_flatten_pieces (by decide) .start result

theorem unwrapFrom_of_open {t : Text} (other : isEnclosed t = false) (fuel : Nat) :
    unwrapFrom fuel t = t := by
  cases fuel with
  | zero => rfl
  | succ fuel => exact if_neg (by simpa [isEnclosed] using other)

theorem unwrapFrom_parts (fuel : Nat) (t : Text) :
    ∃ before behind, t = before ++ (unwrapFrom fuel t ++ behind) ∧
      (∀ c ∈ behind, c = ')' ∨ isBlank c = true) ∧
      (fuel ≠ 0 → isEnclosed t = true → ')' ∈ behind) := by
  induction fuel generalizing t with
  | zero => exact ⟨[], [], by simp [unwrapFrom], by simp, fun none => absurd rfl none⟩
  | succ fuel ih =>
    rw [unwrapFrom]
    split
    · rename_i enclosed
      obtain ⟨before, behind, inner, closing, _⟩ := ih (trim (t.drop 1).dropLast)
      obtain ⟨a, b, leading, trailing, text⟩ := exists_blanks_trim (t.drop 1).dropLast
      refine ⟨'(' :: (a ++ before), behind ++ (b ++ [')']), ?_, ?_, fun _ _ => by simp⟩
      · rw [inner] at text
        conv_lhs => rw [eq_parens enclosed, text]
        simp only [List.cons_append, List.append_assoc]
      · intro c member
        rcases List.mem_append.mp member with member | member
        · exact closing c member
        · rcases List.mem_append.mp member with member | member
          · exact .inr (List.all_eq_true.mp trailing c member)
          · exact .inl (List.mem_singleton.mp member)
    · rename_i other
      exact ⟨[], [], by simp, by simp, fun _ enclosed => absurd enclosed other⟩

theorem isEnclosed_iff {parameters rest : Text}
    (trimmed : Trimmed (functionHead parameters ++ '=' :: '>' :: rest)) :
    isEnclosed (functionHead parameters ++ '=' :: '>' :: rest) = true ↔
      (trim rest).getLast? = some ')' := by
  have last : (functionHead parameters ++ '=' :: '>' :: rest).getLast? =
      ('>' :: rest).getLast? := by
    rw [List.append_cons, List.getLast?_append_of_ne_nil _ (by simp)]
  have opens : startsWith (functionHead parameters ++ '=' :: '>' :: rest) ['('] = true := rfl
  rw [isEnclosed, opens, Bool.true_and, endsWith_single, last, beq_iff_eq]
  cases rest with
  | nil => decide
  | cons d rest =>
    rw [List.getLast?_cons_cons] at last ⊢
    rw [getLast?_trim fun c member => trimmed.back c (by rwa [last])]

theorem generic?_paren (t : Text) : generic? ('(' :: t) = none := by
  have sign : isWord '(' = false := by decide
  simp [generic?, sign]

theorem not_hasArrow_of_arrowResult? {t value : Text} (found : arrowResult? t = some value) :
    ¬ HasArrow value := by
  obtain ⟨_, rest, _, noArrow, rfl⟩ := arrowResult?_eq_some found
  exact fun within => noArrow (within.trans (isInfix_trim rest))

theorem arrowResult?_unwrapFrom {front tail value : Text} {fuel : Nat}
    (noArrow : ¬ HasArrow tail) (nonzero : fuel ≠ 0)
    (found : arrowResult? (unwrapFrom fuel (front ++ '=' :: '>' :: tail)) = some value) :
    (isEnclosed (front ++ '=' :: '>' :: tail) = false ∧ value = trim tail) ∨
      value.count ')' < tail.count ')' := by
  obtain ⟨a, rest, left, last, rfl⟩ := arrowResult?_eq_some found
  obtain ⟨before, behind, whole, closing, taken⟩ :=
    unwrapFrom_parts fuel (front ++ '=' :: '>' :: tail)
  cases enclosed : isEnclosed (front ++ '=' :: '>' :: tail) with
  | false =>
    rw [unwrapFrom_of_open enclosed] at left
    exact .inl ⟨rfl, by rw [behind_last_arrow left noArrow last]⟩
  | true =>
    have silent : ∀ c ∈ behind, c ≠ '=' ∧ c ≠ '>' := by
      intro c member
      rcases closing c member with rfl | blank
      · decide
      · exact silent_of_isBlank blank
    have same : front ++ '=' :: '>' :: tail = (before ++ a) ++ '=' :: '>' :: (rest ++ behind) := by
      rw [whole, left]
      simp only [List.append_assoc, List.cons_append]
    have parts := behind_last_arrow same noArrow fun within =>
      last (hasArrow_of_append silent within)
    have fewer := (isInfix_trim rest).sublist.count_le ')'
    have some := List.count_pos_iff.mpr (taken nonzero enclosed)
    right
    rw [parts, List.count_append]
    omega

theorem arrowResult?_functionText_iff {parameters : Text} (balanced : Balanced parameters)
    (result : Text) :
    arrowResult? (bare (functionText parameters result)) = some (trim result) ↔
      Outlasts result := by
  obtain ⟨trimmed, gap, blank, stripped⟩ := stripNullish_functionText balanced result
  have kept : trim (gap ++ rejoined result) = trim (rejoined result) := by
    have around := trim_blanks blank (b := []) rfl (rejoined result)
    rwa [List.append_nil] at around
  rw [bare, unwrap, trimmed.trim_eq, stripped]
  rw [stripped] at trimmed
  have ends := isEnclosed_iff trimmed
  rw [kept] at ends
  constructor
  · intro found
    have noArrow : ¬ HasArrow result := fun within =>
      not_hasArrow_of_arrowResult? found (hasArrow_trim within)
    have tailArrow : ¬ HasArrow (gap ++ rejoined result) := fun within =>
      noArrow (hasArrow_of_rejoined ((kept ▸ hasArrow_trim within).trans (isInfix_trim _)))
    rcases arrowResult?_unwrapFrom tailArrow (by simp) found with ⟨other, same⟩ | fewer
    · rw [kept] at same
      refine ⟨noArrow, fun paren => ?_, same.symm⟩
      rw [ends.mpr (same ▸ paren)] at other
      cases other
    · have most := count_rejoined_le result
      rw [count_trim (by decide), List.count_append, count_blanks (by decide) blank] at fewer
      omega
  · rintro ⟨noArrow, noParen, spelled⟩
    rw [← spelled] at noParen ⊢
    have other : isEnclosed (functionHead parameters ++ '=' :: '>' :: (gap ++ rejoined result)) =
        false := by
      rw [← Bool.not_eq_true, ends]
      exact noParen
    have tailArrow : ¬ HasArrow (gap ++ rejoined result) := fun within =>
      noArrow ((spelled ▸ kept ▸ hasArrow_trim within).trans (isInfix_trim result))
    have text : functionHead parameters ++ '=' :: '>' :: (gap ++ rejoined result) =
        '(' :: (parameters ++ ')' :: ([' '] ++ '=' :: '>' :: (gap ++ rejoined result))) := by
      simp [functionHead]
    rw [unwrapFrom_of_open other, text, arrowResult?_arrow tailArrow, kept]

theorem generic?_of_arrowResult? {t value : Text} (found : arrowResult? t = some value) :
    generic? t = none := by
  unfold arrowResult? at found
  split at found
  · obtain ⟨opens, _⟩ := Option.ite_none_right_eq_some.mp found
    obtain ⟨rest, rfl⟩ := List.isPrefixOf_iff_prefix.mp opens
    exact generic?_paren rest
  · cases found

theorem callResult_eq_some_iff {t value : Text} :
    callResult t = .ok (some value) ↔
      ReadAsSignal t value ∨ arrowResult? (bare t) = some value := by
  unfold callResult ReadAsSignal
  cases found : generic? (bare t) with
  | none => simp
  | some parts =>
    obtain ⟨name, arguments⟩ := parts
    have noArrow : arrowResult? (bare t) ≠ some value := fun arrow => by
      rw [generic?_of_arrowResult? arrow] at found
      cases found
    by_cases signal : name ∈ signalNames
    · cases cut : splitTop ',' arguments <;> simp [signal, noArrow, cut]
    · simp [signal, noArrow]

/-- A call gives the result of a function type as it is declared just where the result outlasts the
    reading, but for a function type that is taken for a signal of that very type. -/
theorem callResult_functionText_iff {parameters : Text} (balanced : Balanced parameters)
    (result : Text) :
    callResult (functionText parameters result) = .ok (some (trim result)) ↔
      Outlasts result ∨ ReadAsSignal (functionText parameters result) (trim result) := by
  rw [callResult_eq_some_iff, arrowResult?_functionText_iff balanced, or_comm]

theorem balanced_functionText {parameters result : Text} (balanced : Balanced parameters)
    (declared : Balanced result) : Balanced (functionText parameters result) := by
  have front := (nested_functionHead balanced).mono (fun _ _ => rfl)
  simpa [functionText] using front.append declared

/-- The parameters have an arrow and a closing parenthesis in a literal. -/
theorem callResult_functionText_iff_options :
    Balanced ("make: ".toList ++ functionText [] "')'".toList) ∧
      callResult (functionText ("make: ".toList ++ functionText [] "')'".toList)
        "Option<T>[] | string ".toList) = .ok (some "Option<T>[] | string".toList) := by
  have quoted : Quoted singleQuote [')'] := .plain (by decide) (by decide) .nil
  have literal : Balanced "')'".toList := .literal (by decide) quoted .nil
  have name : Balanced "make: ".toList := nested_of_plain (by decide)
  have balanced := name.append (balanced_functionText .nil literal)
  have noArrow : findLast? ['=', '>'] "Option<T>[] | string ".toList = none := by decide
  have outlasts : Outlasts "Option<T>[] | string ".toList :=
    ⟨(findLast?_eq_none_iff (by decide)).mp noArrow, by decide, by decide⟩
  have trimmed : trim "Option<T>[] | string ".toList = "Option<T>[] | string".toList := by decide
  refine ⟨balanced, ?_⟩
  rw [← trimmed]
  exact (callResult_functionText_iff balanced _).mpr (.inl outlasts)

/-- A nullish member, a curried function, parentheses and an arrow among type arguments: results
    that a call does not give. -/
theorem callResult_cuts_results :
    (Balanced "id: number".toList ∧ Balanced "User | null".toList ∧
      callResult (functionText "id: number".toList "User | null".toList) =
        .ok (some "User".toList)) ∧
    (Balanced (functionText [] "string".toList) ∧
      callResult (functionText [] (functionText [] "string".toList)) =
        .ok (some "string".toList)) ∧
    (Balanced "(A | B)".toList ∧
      callResult (functionText [] "(A | B)".toList) = .ok none) ∧
    Balanced ("Promise".toList ++ '<' :: (functionText [] "void".toList ++ ['>'])) ∧
      callResult (functionText []
        ("Promise".toList ++ '<' :: (functionText [] "void".toList ++ ['>']))) =
          .ok (some "void>".toList) := by
  have plain : ∀ t : Text, t.all (fun c => isPlain c && true) = true → Balanced t := fun t all =>
    nested_of_plain all
  have enclosed : Balanced "(A | B)".toList :=
    nested_enclosed (by decide) (plain "A | B".toList (by decide))
  have arguments : Balanced ("Promise".toList ++ '<' :: (functionText [] "void".toList ++ ['>'])) :=
    (plain "Promise".toList (by decide)).append
      (nested_enclosed (by decide) (balanced_functionText .nil (plain "void".toList (by decide))))
  exact ⟨⟨plain _ (by decide), plain _ (by decide), by decide⟩,
    ⟨balanced_functionText .nil (plain _ (by decide)), by decide⟩,
    ⟨enclosed, by decide⟩, arguments, by decide⟩

end TemplateTypes.TypeText
