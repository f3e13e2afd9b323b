import TemplateTypes.Proofs.TypeText.Parts

namespace TemplateTypes

open Text

/-- A piece of a text is one part between blanks, or blanks alone. -/
inductive Holds : Text → List Text → Prop
  | nothing {gap : Text} : allBlank gap = true → Holds gap []
  | part {before part behind : Text} : allBlank before = true → allBlank behind = true →
      part ≠ [] → Trimmed part → Holds (before ++ (part ++ behind)) [part]

/-- A text read from a state of the scanner on has these parts: one at most before each separator
    outside brackets and literals and behind the last one, and nothing else but blanks. -/
inductive SplitsInto (separator : Char) : Scanner → Text → List Text → Prop
  | last {s : Scanner} {t : Text} {parts : List Text} :
      s.Whole separator none t → Holds t parts → SplitsInto separator s t parts
  | cut {s : Scanner} {piece rest : Text} {first parts : List Text} :
      s.Whole separator (some separator) piece →
      (s.run piece).cuts separator separator rest = true → Holds piece first →
      SplitsInto separator ((s.run piece).next separator) rest parts →
      SplitsInto separator s (piece ++ separator :: rest) (first ++ parts)

theorem holds_trim (piece : Text) : Holds piece ([trim piece].filter (!·.isEmpty)) := by
  by_cases visible : trim piece = []
  · simpa [visible] using Holds.nothing (trim_eq_nil_iff.mp visible)
  · obtain ⟨a, b, before, behind, text⟩ := exists_blanks_trim piece
    have held := Holds.part before behind visible (trimmed_trim piece)
    rw [← text] at held
    simpa [visible] using held

theorem splitsInto_pieces (separator : Char) (s : Scanner) (t : Text) :
    SplitsInto separator s t (((topPiecesFrom separator s t).map trim).filter (!·.isEmpty)) := by
  induction length : t.length using Nat.strongRecOn generalizing s t with
  | ind n ih =>
    rcases topPiecesFrom_cases separator s t with whole | ⟨piece, rest, rfl, whole, cuts⟩
    · rw [topPiecesFrom_of_whole whole]
      exact .last whole (holds_trim t)
    · have shorter : rest.length < n := by
        rw [← length, List.length_append, List.length_cons]
        omega
      have later := ih rest.length shorter ((s.run piece).next separator) rest rfl
      rw [topPiecesFrom_cut whole cuts]
      show SplitsInto separator s _ (([trim piece] ++ _).filter (!·.isEmpty))
      rw [List.filter_append]
      exact .cut whole cuts (holds_trim piece) later

theorem isSeparator_of_mem {separator : Char} (member : separator ∈ ['|', ',', '&']) :
    IsSeparator separator := by
  simp only [List.mem_cons, List.not_mem_nil, or_false] at member
  rcases member with rfl | rfl | rfl
  all_goals exact ⟨by decide, by decide⟩

/-- The parts are what stands between the separators. Each one by itself is split into itself, and
    joined by their separator they are split into the same parts again. -/
theorem splitTop_decomposes {separator : Char} (separates : separator ∈ ['|', ',', '&'])
    (t : Text) :
    SplitsInto separator .start t (splitTop separator t) ∧
      (∀ part ∈ splitTop separator t, splitTop separator part = [part]) ∧
      splitTop separator (join [' ', separator, ' '] (splitTop separator t)) =
        splitTop separator t := by
  have separates := isSeparator_of_mem separates
  have are := areParts_splitTop separates t
  refine ⟨splitsInto_pieces separator .start t, fun part member => ?_, splitTop_join separates are⟩
  exact splitTop_join separates (areParts_single (are.each part member))

/-- A function type with two bars side by side, a literal with a bar in it, and a brace and a
    literal that are never closed. -/
theorem splitTop_decomposes_unclosed :
    '|' ∈ ['|', ',', '&'] ∧
      SplitsInto '|' .start "(a: A | B) => C || D |'x|y'|  \x7bz | \"| ".toList
        ["(a: A | B) => C || D".toList, "'x|y'".toList, "\x7bz | \"|".toList] ∧
      splitTop '|' "(a: A | B) => C || D | 'x|y' | \x7bz | \"|".toList =
        ["(a: A | B) => C || D".toList, "'x|y'".toList, "\x7bz | \"|".toList] := by
  have separates : '|' ∈ ['|', ',', '&'] := by decide
  have cut : splitTop '|' "(a: A | B) => C || D |'x|y'|  \x7bz | \"| ".toList =
      ["(a: A | B) => C || D".toList, "'x|y'".toList, "\x7bz | \"|".toList] := by decide +kernel
  obtain ⟨splits, _, again⟩ :=
    splitTop_decomposes separates "(a: A | B) => C || D |'x|y'|  \x7bz | \"| ".toList
  rw [cut] at splits again
  exact ⟨separates, splits, again⟩

end TemplateTypes
