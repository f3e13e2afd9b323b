import TemplateTypes.Proofs.TypeText.Outline
import TemplateTypes.Proofs.TypeText.Parts

namespace TemplateTypes

open Text TypeText

/-- Each bracket is closed by its own kind, first those that `awaited` says are open. The `>` of an
    arrow is no bracket. Where no bracket is open there is no `separator`. -/
def nests (separator : Char) : (last : Option Char) → (awaited : List Char) → Text → Bool
  | _, awaited, [] => awaited.isEmpty
  | last, awaited, c :: rest =>
    match brackets.lookup c with
    | some closer => nests separator (some c) (closer :: awaited) rest
    | none =>
      if isCloser c && !(c == '>' && last == some '=') then
        match awaited with
        | [] => false
        | closer :: outer => c == closer && nests separator (some c) outer rest
      else !(awaited.isEmpty && c == separator) && nests separator (some c) awaited rest

/-- Type text that can stand between separators: its literals are closed, its brackets match, and
    outside both there is no separator. -/
structure IsMember (separator : Char) (t : Text) : Prop where
  visible : t ≠ []
  trimmed : Trimmed t
  formed : ∃ literals outline, Outlined t literals outline ∧
    nests separator none [] outline = true

variable {separator : Char}

theorem lookup_brackets {c closer : Char} (opens : brackets.lookup c = some closer) :
    (c, closer) ∈ brackets := by
  obtain ⟨front, behind, parts, _⟩ := List.lookup_eq_some_iff.mp opens
  simp [parts]

theorem isOpener_eq_false {c : Char} (noOpener : brackets.lookup c = none) :
    isOpener c = false := by
  have differs : ∀ pair ∈ brackets, c ≠ pair.1 := by
    simpa [List.lookup_eq_none_iff] using noOpener
  simp only [brackets, List.mem_cons, List.not_mem_nil, or_false, forall_eq_or_imp, forall_eq]
    at differs
  simp [isOpener, differs]

theorem Scanner.next_other {s : Scanner} {c : Char} (outside : s.quote = none)
    (noQuote : isQuote c = false) (noOpener : isOpener c = false)
    (noCloser : (isCloser c && !(c == '>' && s.last == some '=')) = false) :
    s.next c = ⟨s.depth, none, some c⟩ := by
  simp only [next, outside, noQuote, noOpener, noCloser]
  rfl

theorem Outlined.run_of_nests {t outline : Text} {literals : List Text}
    (outlined : Outlined t literals outline)
    (unslashed : ∀ literal ∈ literals, isSlashed literal = false)
    (separates : isPlain separator = true) {s : Scanner} {awaited : List Char}
    (outside : s.quote = none) (depth : s.depth = awaited.length)
    (formed : nests separator s.last awaited outline = true) :
    ((s.run t).depth = 0 ∧ (s.run t).quote = none) ∧ s.Misses separator t := by
  induction outlined generalizing s awaited with
  | nil =>
    obtain rfl : awaited = [] := by simpa [nests] using formed
    exact ⟨⟨depth, outside⟩, trivial⟩
  | @plain c t outline literals noQuote _ ih =>
    rw [nests.eq_def] at formed
    dsimp only at formed
    split at formed
    · rename_i closer opens
      have step := Scanner.next_opener outside (lookup_brackets opens)
      have deeper : (s.next c).depth = (closer :: awaited).length := by rw [step, depth]; rfl
      obtain ⟨ends, misses⟩ := ih unslashed (by rw [step]) deeper (by rw [step]; exact formed)
      refine ⟨ends, Scanner.misses_at (.inl ?_), misses⟩
      rw [step]
      exact Nat.le_add_left 1 s.depth
    · rename_i noOpener
      split at formed
      · rename_i closes
        have closer : isCloser c = true := (Bool.and_eq_true_iff.mp closes).1
        have other : c ≠ separator := by
          rintro rfl
          simp [isPlain, closer] at separates
        cases awaited with
        | nil => cases formed
        | cons awaits outer =>
          have step : s.next c = ⟨s.depth - 1, none, some c⟩ := by
            simp only [Scanner.next, outside, noQuote, isOpener_eq_false noOpener, closes]
            rfl
          have outward : (s.next c).depth = outer.length := by rw [step, depth]; rfl
          obtain ⟨ends, misses⟩ := ih unslashed (by rw [step]) outward
            (by rw [step]; exact (Bool.and_eq_true_iff.mp formed).2)
          exact ⟨ends, Scanner.misses_at (.inr (.inr other)), misses⟩
      · rename_i stays
        have step := Scanner.next_other outside noQuote (isOpener_eq_false noOpener)
          (by simpa using stays)
        obtain ⟨free, formed⟩ := Bool.and_eq_true_iff.mp formed
        have level : (s.next c).depth = awaited.length := by rw [step, depth]
        obtain ⟨ends, misses⟩ := ih unslashed (by rw [step]) level (by rw [step]; exact formed)
        refine ⟨ends, Scanner.misses_at ?_, misses⟩
        rw [step]
        cases awaited with
        | nil => exact .inr (.inr (by simpa using free))
        | cons closer outer =>
          left
          show 1 ≤ s.depth
          rw [depth]
          exact Nat.le_add_left 1 outer.length
  | @literal quote body t outline literals isQuote within _ ih =>
    obtain ⟨plainly, later⟩ := List.forall_mem_cons.mp unslashed
    have quoted := within.quoted_of_isSlashed isQuote plainly
    have kept := quoted.keeps_literal isQuote outside
    have last : (s.run (quote :: (body ++ [quote]))).last = some quote := by
      rw [Scanner.run_last, ← List.cons_append, List.getLast?_concat]
      rfl
    have noBracket : brackets.lookup quote = none ∧ isCloser quote = false := by
      simp only [TemplateTypes.isQuote, Bool.or_eq_true, beq_iff_eq] at isQuote
      rcases isQuote with (rfl | rfl) | rfl <;> decide
    have rest : nests separator (some quote) awaited outline = true := by
      rw [nests.eq_def] at formed
      simp only [noBracket, Bool.false_and, Bool.false_eq_true, if_false] at formed
      exact (Bool.and_eq_true_iff.mp formed).2
    obtain ⟨ends, misses⟩ := ih later (kept.2.trans outside) (kept.1.trans depth)
      (by rw [last]; exact rest)
    rw [enclosed_append, Scanner.run_append]
    exact ⟨ends, Scanner.misses_append.mpr ⟨quoted.misses_literal isQuote outside separator, misses⟩⟩

theorem IsMember.isPart {t : Text} (member : IsMember separator t)
    (separates : isPlain separator = true) (unslashed : Unslashed t) :
    IsPart separator t ∧ Closes t := by
  obtain ⟨literals, outline, outlined, formed⟩ := member.formed
  obtain ⟨ends, misses⟩ := outlined.run_of_nests (unslashed literals ⟨outline, outlined⟩) separates
    (s := .start) rfl rfl formed
  exact ⟨⟨member.visible, member.trimmed, misses.whole none⟩, ends⟩

theorem splitTop_single_iff (separates : IsSeparator separator) {t : Text} :
    splitTop separator t = [t] ↔ IsPart separator t := by
  constructor
  · intro whole
    have are := areParts_splitTop separates t
    rw [whole] at are
    exact are.each t List.mem_cons_self
  · exact fun part => splitTop_join separates (areParts_single part)

theorem pairwise_iff_dropLast {P : Text → Prop} (parts : List Text) :
    parts.Pairwise (fun part _ => P part) ↔ ∀ part ∈ parts.dropLast, P part := by
  induction parts with
  | nil => simp
  | cons first more ih =>
    cases more with
    | nil => simp
    | cons second more =>
      rw [List.pairwise_cons, ih, List.dropLast_cons_cons]
      constructor
      · rintro ⟨here, later⟩
        exact List.forall_mem_cons.mpr ⟨here second List.mem_cons_self, later⟩
      · intro all
        obtain ⟨here, later⟩ := List.forall_mem_cons.mp all
        exact ⟨fun _ _ => here, later⟩

theorem areParts_iff (separates : IsSeparator separator) {parts : List Text} :
    AreParts separator parts ↔
      (∀ part ∈ parts, splitTop separator part = [part]) ∧ ∀ part ∈ parts.dropLast, Closes part := by
  rw [← pairwise_iff_dropLast]
  constructor
  · intro are
    exact ⟨fun part among => (splitTop_single_iff separates).mpr (are.each part among), are.closes⟩
  · rintro ⟨each, closes⟩
    exact ⟨fun part among => (splitTop_single_iff separates).mp (each part among), closes⟩

theorem splitTop_join_iff (separates : IsSeparator separator) {parts : List Text} :
    splitTop separator (join [' ', separator, ' '] parts) = parts ↔ AreParts separator parts := by
  constructor
  · intro whole
    have are := areParts_splitTop separates (join [' ', separator, ' '] parts)
    rwa [whole] at are
  · exact splitTop_join separates

theorem unslashed_of_outlined {t outline : Text} {literals : List Text}
    (outlined : Outlined t literals outline)
    (plainly : ∀ literal ∈ literals, isSlashed literal = false) : Unslashed t := by
  intro others read
  obtain rfl := HasLiterals.unique ⟨outline, outlined⟩ read
  exact plainly

/-- Splitting a union gives the members it was written with exactly when each member by itself is
    split into itself and none but the last leaves a bracket or a literal open to the reader. So it
    is for all members without literals that end in a backslash. -/
theorem splitTop_unionText_iff {members : List Text}
    (formed : ∀ member ∈ members, IsMember '|' member) :
    (splitTop '|' (unionText members) = members ↔
      (∀ member ∈ members, splitTop '|' member = [member]) ∧
        ∀ member ∈ members.dropLast, Closes member) ∧
      ((∀ member ∈ members, Unslashed member) → splitTop '|' (unionText members) = members) := by
  refine ⟨(splitTop_join_iff isSeparator_bar).trans (areParts_iff isSeparator_bar), ?_⟩
  intro unslashed
  have parts := fun member among =>
    (formed member among).isPart isSeparator_bar.plain (unslashed member among)
  apply splitTop_unionText
  refine ⟨fun member among => (parts member among).1, ?_⟩
  apply (pairwise_iff_dropLast members).mpr
  exact fun member among => (parts member (List.dropLast_subset members among)).2

/-- The bars in a literal with an escaped quote and those in brackets, one of which holds an
    arrow. -/
theorem splitTop_unionText_iff_escaped :
    (∀ member ∈ ["'a|\\'|b'".toList, "Map<string, () => A | B>".toList], IsMember '|' member) ∧
      (∀ member ∈ ["'a|\\'|b'".toList, "Map<string, () => A | B>".toList], Unslashed member) ∧
      splitTop '|' (unionText ["'a|\\'|b'".toList, "Map<string, () => A | B>".toList]) =
        ["'a|\\'|b'".toList, "Map<string, () => A | B>".toList] := by
  have body : LiteralBody singleQuote "a|\\'|b".toList :=
    .append (literalBody_of_plain (t := "a|".toList) (by decide))
      (.escaped (literalBody_of_plain (by decide)))
  have first : Outlined "'a|\\'|b'".toList ["'a|\\'|b'".toList] [singleQuote] :=
    .literal (by decide) body .nil
  have second : Outlined "Map<string, () => A | B>".toList [] "Map<string, () => A | B>".toList :=
    outlined_of_plain (by decide)
  have formed : ∀ member ∈ ["'a|\\'|b'".toList, "Map<string, () => A | B>".toList],
      IsMember '|' member := by
    simp only [List.forall_mem_cons]
    refine ⟨⟨by decide, trimmed_of_trim (by decide), _, _, first, by decide⟩,
      ⟨by decide, trimmed_of_trim (by decide), _, _, second, by decide⟩, by simp⟩
  have unslashed : ∀ member ∈ ["'a|\\'|b'".toList, "Map<string, () => A | B>".toList],
      Unslashed member := by
    simp only [List.forall_mem_cons]
    exact ⟨unslashed_of_outlined first (by decide), unslashed_of_outlined second (by decide),
      by simp⟩
  exact ⟨formed, unslashed, (splitTop_unionText_iff formed).2 unslashed⟩

/-- The quote behind an escaped backslash closes its literal and is not seen to. -/
theorem splitTop_loses_members :
    (∀ member ∈ ["'\\\\'".toList, "A".toList], IsMember '|' member) ∧
      splitTop '|' (unionText ["'\\\\'".toList, "A".toList]) ≠ ["'\\\\'".toList, "A".toList] := by
  have first : Outlined "'\\\\'".toList ["'\\\\'".toList] [singleQuote] :=
    .literal (by decide) (.escaped .nil) .nil
  have second : Outlined "A".toList [] "A".toList := outlined_of_plain (by decide)
  refine ⟨?_, by decide⟩
  simp only [List.forall_mem_cons]
  exact ⟨⟨by decide, trimmed_of_trim (by decide), _, _, first, by decide⟩,
    ⟨by decide, trimmed_of_trim (by decide), _, _, second, by decide⟩, by simp⟩

end TemplateTypes
