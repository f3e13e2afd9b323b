import TemplateTypes.Proofs.TypeText.Normal
import TemplateTypes.Proofs.TypeText.Scanning

namespace TemplateTypes

open Text TypeText

theorem isPlain_of_isBlank {c : Char} (blank : isBlank c = true) : isPlain c = true := by
  apply isPlain_of_not_mem_signs
  intro sign
  have solid : signs.all (fun c => !isBlank c) = true := by decide
  have visible := List.all_eq_true.mp solid c sign
  rw [blank] at visible
  cases visible

/-- No blank, and nothing that brackets, literals or arrows are made of. -/
structure IsSeparator (c : Char) : Prop where
  plain : isPlain c = true
  solid : isBlank c = false

theorem isSeparator_bar : IsSeparator '|' := ⟨by decide, by decide⟩

theorem ne_of_isBlank {c d : Char} (blank : isBlank c = true) (solid : isBlank d = false) :
    c ≠ d := by
  rintro rfl
  rw [solid] at blank
  cases blank

namespace Scanner

variable {s : Scanner} {separator c : Char}

def Proper (s : Scanner) : Prop := ∀ quote ∈ s.quote, isQuote quote = true

theorem proper_start : start.Proper := by simp [Proper, start]

theorem Proper.next (proper : s.Proper) (c : Char) : (s.next c).Proper := by
  intro quote inside
  unfold Scanner.next at inside
  split at inside
  · rename_i quoted opened
    split at inside
    · cases inside
    · cases inside
      exact proper quote opened
  · split at inside
    · rename_i opens
      cases inside
      exact opens
    · split at inside
      · cases inside
      · split at inside <;> cases inside

theorem Proper.run (proper : s.Proper) (t : Text) : (s.run t).Proper := by
  induction t generalizing s with
  | nil => exact proper
  | cons c t ih => exact ih (proper.next c)

theorem Proper.next_blank (proper : s.Proper) (blank : isBlank c = true) :
    s.next c = ⟨s.depth, s.quote, some c⟩ := by
  cases inside : s.quote with
  | none => exact next_plain inside (isPlain_of_isBlank blank)
  | some quote =>
    have solid := isBlank_of_isQuote (proper quote inside)
    exact next_quoted inside (.inl (ne_of_isBlank blank solid))

theorem Proper.keeps_blanks (proper : s.Proper) {t : Text} (blank : allBlank t = true) :
    s.Keeps t := by
  induction t generalizing s with
  | nil => exact ⟨rfl, rfl⟩
  | cons c t ih =>
    rw [allBlank_cons, Bool.and_eq_true] at blank
    have step := proper.next_blank blank.1
    have here : s.Keeps [c] := by
      rw [Keeps, run_cons, step]
      exact ⟨rfl, rfl⟩
    exact here.append (ih (proper.next c) blank.2)

structure Fresh (s : Scanner) (t : Text) : Prop where
  depth : s.depth = 0
  quote : s.quote = none
  noArrow : s.last ≠ some '='
  apart : s.last = some '|' → t.head? ≠ some '|'

theorem fresh_start (t : Text) : start.Fresh t := ⟨rfl, rfl, by decide, by simp [start]⟩

theorem Fresh.next_eq {t : Text} (fresh : s.Fresh (c :: t)) : s.next c = start.next c := by
  simp [Scanner.next, fresh.depth, fresh.quote, fresh.noArrow, start]

theorem Fresh.run_eq {t : Text} (fresh : s.Fresh t) (some : t ≠ []) : s.run t = start.run t := by
  cases t with
  | nil => exact absurd rfl some
  | cons c t => rw [run_cons, run_cons, fresh.next_eq]

theorem Fresh.cuts_eq {t : Text} (fresh : s.Fresh (c :: t)) (rest : Text) :
    s.cuts separator c rest = start.cuts separator c rest := by
  have seen : s.seesTop c = start.seesTop c := by
    have quoted : s.quote = start.quote := fresh.quote
    rw [seesTop, seesTop, sees, sees, fresh.next_eq, quoted]
  by_cases bar : c = '|'
  · have apart : (s.last == some '|') = (start.last == some '|') := by
      have differs : s.last ≠ some '|' := fun last => fresh.apart last (by rw [bar]; rfl)
      rw [beq_false_of_ne differs]
      rfl
    rw [cuts, cuts, seen, apart]
  · -- A bar beside it matters to a bar only.
    by_cases same : c = separator
    · have other : separator ≠ '|' := same ▸ bar
      simp [cuts, seen, beq_false_of_ne other]
    · simp [cuts, beq_false_of_ne same]

variable {next : Option Char}

theorem Fresh.whole_iff {t : Text} (fresh : s.Fresh t) :
    s.Whole separator next t ↔ start.Whole separator next t := by
  cases t with
  | nil => exact Iff.rfl
  | cons c t => simp only [Whole, fresh.next_eq, fresh.cuts_eq]

theorem Fresh.topPiecesFrom_eq {t : Text} (fresh : s.Fresh t) :
    topPiecesFrom separator s t = topPiecesFrom separator start t := by
  cases t with
  | nil => rfl
  | cons c t => rw [topPiecesFrom, topPiecesFrom, fresh.cuts_eq, fresh.next_eq]

theorem Fresh.of_append {t u : Text} (fresh : s.Fresh (t ++ u)) (some : t ≠ []) : s.Fresh t := by
  cases t with
  | nil => exact absurd rfl some
  | cons c t => exact ⟨fresh.depth, fresh.quote, fresh.noArrow, fresh.apart⟩

theorem Fresh.behind {a t : Text} (fresh : s.Fresh (a ++ t)) (blank : allBlank a = true) :
    (s.run a).Fresh t := by
  have proper : s.Proper := by simp [Proper, fresh.quote]
  have kept := proper.keeps_blanks blank
  cases last : a.getLast? with
  | none =>
    obtain rfl := List.getLast?_eq_none_iff.mp last
    exact fresh
  | some c =>
    have blankHere : isBlank c = true := List.all_eq_true.mp blank c (List.mem_of_getLast? last)
    have read : (s.run a).last = some c := by rw [run_last, last, Option.some_or]
    refine ⟨kept.1.trans fresh.depth, kept.2.trans fresh.quote, ?_, ?_⟩
    · rw [read]
      exact fun same => ne_of_isBlank blankHere (by decide) (Option.some.inj same)
    · rw [read]
      exact fun same => absurd (Option.some.inj same) (ne_of_isBlank blankHere (by decide))

theorem whole_of_not_mem {t : Text} (absent : separator ∉ t) :
    s.Whole separator next t := by
  induction t generalizing s with
  | nil => trivial
  | cons c t ih =>
    rw [List.mem_cons, not_or] at absent
    exact ⟨by simp [cuts, Ne.symm absent.1], ih absent.2⟩

theorem not_mem_blanks (solid : isBlank c = false) {t : Text} (blank : allBlank t = true) :
    c ∉ t := fun member => ne_of_isBlank (List.all_eq_true.mp blank c member) solid rfl

theorem Whole.followed {other : Option Char} {t : Text} (whole : s.Whole separator next t)
    (apart : next = some '|' → t.getLast? ≠ some '|') : s.Whole separator other t := by
  induction t generalizing s with
  | nil => trivial
  | cons c t ih =>
    cases t with
    | cons d t =>
      have later := ih whole.2 (by simpa using apart)
      refine ⟨?_, later⟩
      rw [← whole.1]
      exact cuts_congr rfl c
    | nil =>
      refine ⟨?_, trivial⟩
      by_cases bar : separator = '|'
      · subst bar
        by_cases here : c = '|'
        · have free : next ≠ some '|' := fun same => apart same (by rw [here]; rfl)
          have stays := whole.1
          cases next <;> simp_all [cuts]
        · simp [cuts, here]
      · have stays := whole.1
        simp_all [cuts]

theorem cuts_iff (separates : IsSeparator separator) {rest : Text} :
    s.cuts separator separator rest = true ↔ (s.depth = 0 ∧ s.quote = none) ∧
      (separator = '|' → s.last ≠ some '|' ∧ rest.head? ≠ some '|') := by
  cases quoted : s.quote with
  | some quote => simp [cuts, seesTop, sees, quoted]
  | none =>
    have step := next_plain quoted separates.plain
    have noQuote : isQuote separator = false := by
      have plain := separates.plain
      simp only [isPlain, Bool.and_eq_true, Bool.not_eq_true'] at plain
      exact plain.1.1.1
    have seen : s.seesTop separator = (s.depth == 0) := by
      simp [seesTop, sees, quoted, step, noQuote]
    rw [cuts, seen]
    by_cases bar : separator = '|' <;> simp [bar, and_comm]

theorem fresh_of_cuts (separates : IsSeparator separator) {rest : Text}
    (cuts : s.cuts separator separator rest = true) : (s.next separator).Fresh rest := by
  obtain ⟨⟨depth, quote⟩, apart⟩ := (cuts_iff separates).mp cuts
  have noArrow : separator ≠ '=' := by
    rintro rfl
    exact absurd separates.plain (by decide)
  rw [next_plain quote separates.plain]
  exact ⟨depth, rfl, by simpa using noArrow, fun bar => (apart (Option.some.inj bar)).2⟩

end Scanner

structure IsPart (separator : Char) (t : Text) : Prop where
  visible : t ≠ []
  trimmed : Trimmed t
  whole : Scanner.start.Whole separator none t

def Closes (t : Text) : Prop :=
  (Scanner.start.run t).depth = 0 ∧ (Scanner.start.run t).quote = none

structure AreParts (separator : Char) (parts : List Text) : Prop where
  each : ∀ part ∈ parts, IsPart separator part
  closes : parts.Pairwise fun part _ => Closes part

variable {separator : Char}

theorem areParts_nil : AreParts separator [] := ⟨by simp, .nil⟩

theorem areParts_single {t : Text} (part : IsPart separator t) : AreParts separator [t] :=
  ⟨by simpa using part, List.pairwise_singleton _ t⟩

theorem AreParts.cons {first : Text} {parts : List Text} (part : IsPart separator first)
    (closes : Closes first) (more : AreParts separator parts) :
    AreParts separator (first :: parts) :=
  ⟨List.forall_mem_cons.mpr ⟨part, more.each⟩,
    List.pairwise_cons.mpr ⟨fun _ _ => closes, more.closes⟩⟩

theorem AreParts.sublist {parts some : List Text} (are : AreParts separator parts)
    (within : some.Sublist parts) : AreParts separator some :=
  ⟨fun part among => are.each part (within.subset among), are.closes.sublist within⟩

variable {s : Scanner} {piece : Text}

theorem isPart_trim {next : Option Char} (fresh : s.Fresh piece)
    (whole : s.Whole separator next piece)
    (apart : next = some '|' → piece.getLast? ≠ some '|')
    (visible : trim piece ≠ []) : IsPart separator (trim piece) := by
  obtain ⟨a, b, before, behind, parts⟩ := exists_blanks_trim piece
  have alone : s.Whole separator none (a ++ (trim piece ++ b)) := by
    rw [← parts]
    exact whole.followed apart
  have within := (Scanner.whole_append.mp (Scanner.whole_append.mp alone).2).1
  have blankNext : b.head?.or none = some '|' → (trim piece).getLast? ≠ some '|' := by
    intro bar
    rw [Option.or_none] at bar
    exact absurd (List.mem_of_head? bar) (Scanner.not_mem_blanks (by decide) behind)
  have reread : (s.run a).Fresh (trim piece) := by
    rw [parts] at fresh
    exact (fresh.behind before).of_append visible
  exact ⟨visible, trimmed_trim piece, reread.whole_iff.mp (within.followed blankNext)⟩

theorem closes_trim (fresh : s.Fresh piece) (visible : trim piece ≠ [])
    (closed : (s.run piece).depth = 0 ∧ (s.run piece).quote = none) : Closes (trim piece) := by
  obtain ⟨a, b, before, behind, parts⟩ := exists_blanks_trim piece
  have reread : (s.run a).Fresh (trim piece) := by
    rw [parts] at fresh
    exact (fresh.behind before).of_append visible
  have kept := (Scanner.proper_start.run (trim piece)).keeps_blanks behind
  have whole : s.run piece = (Scanner.start.run (trim piece)).run b := by
    rw [parts, Scanner.run_append, Scanner.run_append, reread.run_eq visible, ← parts]
  rw [whole] at closed
  exact ⟨kept.1.symm.trans closed.1, kept.2.symm.trans closed.2⟩

theorem areParts_pieces (separates : IsSeparator separator) {t : Text} (fresh : s.Fresh t) :
    AreParts separator (((topPiecesFrom separator s t).map trim).filter (!·.isEmpty)) := by
  induction length : t.length using Nat.strongRecOn generalizing s t with
  | ind n ih =>
    rcases topPiecesFrom_cases separator s t with whole | ⟨a, rest, rfl, whole, cuts⟩
    · rw [topPiecesFrom_of_whole whole]
      by_cases visible : trim t = []
      · simpa [visible] using areParts_nil
      · have part := isPart_trim fresh whole (by simp) visible
        simpa [visible] using areParts_single part
    · have shorter : rest.length < n := by
        rw [← length, List.length_append, List.length_cons]
        omega
      obtain ⟨outside, free⟩ := (Scanner.cuts_iff separates).mp cuts
      have more := ih rest.length shorter (Scanner.fresh_of_cuts separates cuts) rfl
      rw [topPiecesFrom_cut whole cuts]
      by_cases visible : trim a = []
      · simpa [visible] using more
      · have nonempty : a ≠ [] := by
          rintro rfl
          exact visible rfl
        have apart : some separator = some '|' → a.getLast? ≠ some '|' := by
          intro bar last
          apply (free (Option.some.inj bar)).1
          rw [Scanner.run_last, last]
          rfl
        have fresh := fresh.of_append nonempty
        have part := isPart_trim fresh whole apart visible
        simpa [visible] using more.cons part (closes_trim fresh visible outside)

theorem areParts_splitTop (separates : IsSeparator separator) (t : Text) :
    AreParts separator (splitTop separator t) :=
  areParts_pieces separates (Scanner.fresh_start t)

theorem Scanner.Fresh.whole_part (solid : isBlank separator = false) {lead first : Text}
    {next : Option Char} (fresh : s.Fresh (lead ++ first)) (blank : allBlank lead = true)
    (part : IsPart separator first) : s.Whole separator next (lead ++ first) := by
  have reread := (fresh.behind blank).whole_iff.mpr part.whole
  apply Scanner.whole_append.mpr
  exact ⟨Scanner.whole_of_not_mem (Scanner.not_mem_blanks solid blank), reread.followed (by simp)⟩

theorem Scanner.Fresh.cuts_behind (separates : IsSeparator separator) {lead first rest : Text}
    (fresh : s.Fresh (lead ++ first)) (blank : allBlank lead = true) (visible : first ≠ [])
    (closes : Closes first) (apart : rest.head? ≠ some '|') :
    (s.run (lead ++ first ++ [' '])).cuts separator separator rest = true := by
  have space : isBlank ' ' = true := by decide
  have read : s.run (lead ++ first) = Scanner.start.run first := by
    rw [Scanner.run_append, (fresh.behind blank).run_eq visible]
  have step := (Scanner.proper_start.run first).next_blank space
  rw [Scanner.run_append, read]
  apply (Scanner.cuts_iff separates).mpr
  rw [Scanner.run_cons, step]
  exact ⟨closes, fun _ => ⟨by simp [Scanner.run], apart⟩⟩

theorem trim_pieces_join (separates : IsSeparator separator) {parts : List Text}
    (are : AreParts separator parts) (nonempty : parts ≠ []) {lead : Text}
    (blank : allBlank lead = true)
    (fresh : s.Fresh (lead ++ join [' ', separator, ' '] parts)) :
    (topPiecesFrom separator s (lead ++ join [' ', separator, ' '] parts)).map trim = parts := by
  induction parts generalizing s lead with
  | nil => exact absurd rfl nonempty
  | cons first more ih =>
    have part := are.each first List.mem_cons_self
    cases more with
    | nil =>
      have whole : s.Whole separator none (lead ++ first) :=
        fresh.whole_part separates.solid blank part
      have alone : trim (lead ++ first) = first := by
        have around := trim_blanks blank (b := []) rfl first
        rwa [List.append_nil, part.trimmed.trim_eq] at around
      show (topPiecesFrom separator s (lead ++ first)).map trim = [first]
      rw [topPiecesFrom_of_whole whole, List.map_singleton, alone]
    | cons second more =>
      have cut : lead ++ join [' ', separator, ' '] (first :: second :: more) =
          (lead ++ first ++ [' ']) ++
            separator :: ([' '] ++ join [' ', separator, ' '] (second :: more)) := by
        simp [join]
      rw [cut] at fresh ⊢
      have closes := (List.pairwise_cons.mp are.closes).1 second List.mem_cons_self
      have here : s.Fresh (lead ++ first) := by
        have some : lead ++ first ≠ [] := by simp [part.visible]
        rw [List.append_assoc (lead ++ first)] at fresh
        exact fresh.of_append some
      have absent : separator ∉ [' '] := Scanner.not_mem_blanks separates.solid (by decide)
      have whole : s.Whole separator (some separator) (lead ++ first ++ [' ']) :=
        Scanner.whole_append.mpr
          ⟨here.whole_part separates.solid blank part, Scanner.whole_of_not_mem absent⟩
      have cuts : (s.run (lead ++ first ++ [' '])).cuts separator separator
          ([' '] ++ join [' ', separator, ' '] (second :: more)) = true :=
        here.cuts_behind separates blank part.visible closes (by simp)
      have space : allBlank [' '] = true := by decide
      have rest := ih (are.sublist (List.sublist_cons_self first _)) (by simp) space
        (Scanner.fresh_of_cuts separates cuts)
      have alone : trim (lead ++ first ++ [' ']) = first := by
        rw [List.append_assoc, trim_blanks blank space, part.trimmed.trim_eq]
      rw [topPiecesFrom_cut whole cuts, List.map_cons, rest, alone]

theorem splitTop_join (separates : IsSeparator separator) {parts : List Text}
    (are : AreParts separator parts) :
    splitTop separator (join [' ', separator, ' '] parts) = parts := by
  cases parts with
  | nil => rfl
  | cons first more =>
    have blank : allBlank [] = true := rfl
    have pieces := trim_pieces_join separates are (by simp) blank (Scanner.fresh_start _)
    rw [List.nil_append] at pieces
    rw [splitTop, pieces, List.filter_eq_self]
    intro part among
    simpa using (are.each part among).visible

theorem trimmed_join {parts : List Text} (are : AreParts separator parts) :
    Trimmed (join [' ', separator, ' '] parts) := by
  induction parts with
  | nil => exact trimmed_trim []
  | cons first more ih =>
    have part := are.each first List.mem_cons_self
    cases more with
    | nil => exact part.trimmed
    | cons second more =>
      have rest := ih (are.sublist (List.sublist_cons_self first _))
      have visible : join [' ', separator, ' '] (second :: more) ≠ [] := by
        have next := (are.each second (by simp)).visible
        cases more <;> simp [join, next]
      have text : join [' ', separator, ' '] (first :: second :: more) =
          first ++ ([' ', separator, ' '] ++ join [' ', separator, ' '] (second :: more)) := by
        simp only [join, List.append_assoc]
      rw [text]
      exact part.trimmed.append rest part.visible visible _

theorem splitTop_unionText {members : List Text} (are : AreParts '|' members) :
    splitTop '|' (unionText members) = members := splitTop_join isSeparator_bar are

theorem trimmed_unionText {members : List Text} (are : AreParts '|' members) :
    Trimmed (unionText members) := trimmed_join are

end TemplateTypes
