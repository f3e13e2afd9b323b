import TemplateTypes.Proofs.Text.Names
import TemplateTypes.Proofs.Text.Spacing
import TemplateTypes.TypeText.Brackets

namespace TemplateTypes

open Text

/-- What stands between the quotes of a literal. The last character is no escaped backslash: the
    readers take a quote after one for escaped. -/
inductive Quoted (quote : Char) : Text → Prop
  | nil : Quoted quote []
  | plain {c : Char} {t : Text} : c ≠ quote → c ≠ '\\' → Quoted quote t → Quoted quote (c :: t)
  | escaped {c : Char} {t : Text} : (c = '\\' → t ≠ []) → Quoted quote t →
      Quoted quote ('\\' :: c :: t)

def brackets : List (Char × Char) := [('(', ')'), ('<', '>'), ('{', '}'), ('[', ']')]

theorem bracket_facts : ∀ pair ∈ brackets, isQuote pair.1 = false ∧ isOpener pair.1 = true ∧
    isQuote pair.2 = false ∧ isOpener pair.2 = false ∧ isCloser pair.2 = true := by
  decide

def isPlain (c : Char) : Bool := !isQuote c && !isOpener c && !isCloser c && c != '='

/-- Brackets match and literals are closed. Outside of them stand the characters that `top` admits,
    and arrows if it admits the sign they end with. -/
inductive Nested : (top : Char → Bool) → Text → Prop
  | nil {top : Char → Bool} : Nested top []
  | plain {top : Char → Bool} {c : Char} {t : Text} : isPlain c = true → top c = true →
      Nested top t → Nested top (c :: t)
  | equals {top : Char → Bool} {t : Text} : top '=' = true → t ≠ [] → Nested top t →
      Nested top ('=' :: t)
  | arrow {top : Char → Bool} {t : Text} : top '>' = true → Nested top t →
      Nested top ('=' :: '>' :: t)
  | group {top : Char → Bool} {opener closer : Char} {inner t : Text} :
      (opener, closer) ∈ brackets → Nested (fun _ => true) inner → Nested top t →
      Nested top (opener :: (inner ++ closer :: t))
  | literal {top : Char → Bool} {quote : Char} {inner t : Text} : isQuote quote = true →
      Quoted quote inner → Nested top t → Nested top (quote :: (inner ++ quote :: t))

abbrev Balanced (t : Text) : Prop := Nested (fun _ => true) t

theorem Nested.mono {top more : Char → Bool} {t : Text} (nested : Nested top t)
    (wider : ∀ c, top c = true → more c = true) : Nested more t := by
  induction nested with
  | nil => exact .nil
  | plain isPlain admitted _ ih => exact .plain isPlain (wider _ admitted) (ih wider)
  | equals admitted some _ ih => exact .equals (wider _ admitted) some (ih wider)
  | arrow admitted _ ih => exact .arrow (wider _ admitted) (ih wider)
  | group pair inner _ _ ih => exact .group pair inner (ih wider)
  | literal quote inner _ ih => exact .literal quote inner (ih wider)

theorem Nested.append {top : Char → Bool} {t u : Text} (left : Nested top t)
    (right : Nested top u) : Nested top (t ++ u) := by
  induction left with
  | nil => exact right
  | plain isPlain admitted _ ih => exact .plain isPlain admitted (ih right)
  | equals admitted some _ ih => exact .equals admitted (by simp [some]) (ih right)
  | arrow admitted _ ih => exact .arrow admitted (ih right)
  | group pair inner _ _ ih =>
    rw [List.cons_append, List.append_assoc, List.cons_append]
    exact .group pair inner (ih right)
  | literal quote inner _ ih =>
    rw [List.cons_append, List.append_assoc, List.cons_append]
    exact .literal quote inner (ih right)

theorem nested_of_plain {top : Char → Bool} {t : Text}
    (plain : t.all (fun c => isPlain c && top c) = true) : Nested top t := by
  induction t with
  | nil => exact .nil
  | cons c t ih =>
    rw [List.all_cons, Bool.and_eq_true, Bool.and_eq_true] at plain
    exact .plain plain.1.1 plain.1.2 (ih plain.2)

theorem isPlain_of_not_mem_signs {c : Char} (plain : c ∉ signs) : isPlain c = true := by
  simp only [signs, List.mem_cons, List.not_mem_nil, or_false, not_or] at plain
  simp [isPlain, isQuote, isOpener, isCloser, plain]

theorem nested_of_names {p : Char → Bool} (names : NamesOnly p) {t : Text}
    (all : ∀ c ∈ t, p c = true) {sign : Char} (separates : sign ∈ signs) :
    Nested (· != sign) t := by
  apply nested_of_plain
  rw [List.all_eq_true]
  intro c member
  have plain := names.plain c (all c member)
  have other : c ≠ sign := fun same => plain (same ▸ separates)
  simp [isPlain_of_not_mem_signs plain, other]

theorem isBlank_of_isQuote {c : Char} (quote : isQuote c = true) : isBlank c = false := by
  simp only [isQuote, Bool.or_eq_true, beq_iff_eq] at quote
  rcases quote with (rfl | rfl) | rfl <;> decide

theorem isBlank_of_brackets :
    ∀ pair ∈ brackets, isBlank pair.1 = false ∧ isBlank pair.2 = false := by
  decide

theorem collapse_ne_nil {t : Text} (some : t ≠ []) : collapseFrom false t ≠ [] := by
  cases t with
  | nil => exact absurd rfl some
  | cons c t => cases blank : isBlank c <;> simp [collapseFrom, blank]

theorem collapseFrom_cons {c : Char} (solid : isBlank c = false) (inRun : Bool) (t : Text) :
    collapseFrom inRun (c :: t) = c :: collapse t :=
  collapseFrom_append_cons solid inRun [] t

theorem Quoted.collapseFrom {quote : Char} {t : Text} (quoted : Quoted quote t)
    (isQuote : isQuote quote = true) (inRun : Bool) : Quoted quote (Text.collapseFrom inRun t) := by
  have backslash : isBlank '\\' = false := by decide
  have solidQuote := isBlank_of_isQuote isQuote
  have space : ' ' ≠ quote := by
    rintro rfl
    exact absurd isQuote (by decide)
  induction quoted generalizing inRun with
  | nil => exact .nil
  | @plain c t differs unescaped _ ih =>
    cases blank : isBlank c with
    | false =>
      rw [collapseFrom_cons blank]
      exact .plain differs unescaped (ih false)
    | true =>
      cases inRun with
      | true => simpa [Text.collapseFrom, blank] using ih true
      | false => simpa [Text.collapseFrom, blank] using Quoted.plain space (by decide) (ih true)
  | @escaped c t bounded _ ih =>
    rw [collapseFrom_cons backslash]
    cases blank : isBlank c with
    | false =>
      rw [collapse, collapseFrom_cons blank]
      exact .escaped (fun same => collapse_ne_nil (bounded same)) (ih false)
    | true => simpa [collapse, Text.collapseFrom, blank] using
      Quoted.escaped (fun same => absurd same (by decide)) (ih true)

theorem Nested.collapseFrom {top : Char → Bool} {t : Text} (nested : Nested top t)
    (spaces : top ' ' = true) (inRun : Bool) : Nested top (Text.collapseFrom inRun t) := by
  have equals : isBlank '=' = false := by decide
  have angle : isBlank '>' = false := by decide
  induction nested generalizing inRun with
  | nil => exact .nil
  | @plain top c t plain admitted _ ih =>
    cases blank : isBlank c with
    | false =>
      rw [collapseFrom_cons blank]
      exact .plain plain admitted (ih spaces false)
    | true =>
      cases inRun with
      | true => simpa [Text.collapseFrom, blank] using ih spaces true
      | false =>
        simpa [Text.collapseFrom, blank] using Nested.plain (by decide) spaces (ih spaces true)
  | @equals top t admitted some _ ih =>
    rw [collapseFrom_cons equals]
    exact .equals admitted (collapse_ne_nil some) (ih spaces false)
  | @arrow top t admitted _ ih =>
    rw [collapseFrom_cons equals, collapse, collapseFrom_cons angle]
    exact .arrow admitted (ih spaces false)
  | @group top opener closer inner t pair _ _ ihInner ih =>
    have solid := isBlank_of_brackets _ pair
    rw [collapseFrom_cons solid.1, collapse, collapseFrom_append_cons solid.2]
    exact .group pair (ihInner rfl false) (ih spaces false)
  | @literal top quote inner t isQuote quoted _ ih =>
    have solid := isBlank_of_isQuote isQuote
    rw [collapseFrom_cons solid, collapse, collapseFrom_append_cons solid]
    exact .literal isQuote (quoted.collapseFrom isQuote false) (ih spaces false)

theorem Nested.collapse {top : Char → Bool} {t : Text} (nested : Nested top t)
    (spaces : top ' ' = true) : Nested top (collapse t) :=
  nested.collapseFrom spaces false

theorem Nested.trimStart {top : Char → Bool} {t : Text} (nested : Nested top t) :
    Nested top (trimStart t) := by
  induction t with
  | nil => exact nested
  | cons c t ih =>
    cases blank : isBlank c with
    | false => simpa [Text.trimStart, blank] using nested
    | true =>
      have rest : Nested top t := by
        cases nested with
        | plain _ _ rest => exact rest
        | equals _ _ _ => exact absurd blank (by decide)
        | arrow _ _ => exact absurd blank (by decide)
        | group pair _ _ =>
          rw [(isBlank_of_brackets _ pair).1] at blank
          cases blank
        | literal quote _ _ =>
          rw [isBlank_of_isQuote quote] at blank
          cases blank
      simpa [Text.trimStart, blank] using ih rest

theorem Nested.trimEnd {top : Char → Bool} {t : Text} (nested : Nested top t)
    (noEquals : top '=' = false) : Nested top (trimEnd t) := by
  have equals : isBlank '=' = false := by decide
  have angle : isBlank '>' = false := by decide
  induction nested with
  | nil => exact .nil
  | @plain top c t plain admitted _ ih =>
    rw [trimEnd_cons]
    split
    · exact .nil
    · exact .plain plain admitted (ih noEquals)
  | @equals top t admitted _ _ _ =>
    rw [noEquals] at admitted
    cases admitted
  | @arrow top t admitted _ ih =>
    have kept : Text.trimEnd ('=' :: '>' :: t) = '=' :: '>' :: Text.trimEnd t :=
      dropEndWhile_append_cons angle ['='] t
    rw [kept]
    exact .arrow admitted (ih noEquals)
  | @group top opener closer inner t pair nested _ _ ih =>
    have kept : Text.trimEnd (opener :: (inner ++ closer :: t)) =
        opener :: (inner ++ closer :: Text.trimEnd t) :=
      dropEndWhile_append_cons (isBlank_of_brackets _ pair).2 (opener :: inner) t
    rw [kept]
    exact .group pair nested (ih noEquals)
  | @literal top quote inner t isQuote quoted _ ih =>
    have kept : Text.trimEnd (quote :: (inner ++ quote :: t)) =
        quote :: (inner ++ quote :: Text.trimEnd t) :=
      dropEndWhile_append_cons (isBlank_of_isQuote isQuote) (quote :: inner) t
    rw [kept]
    exact .literal isQuote quoted (ih noEquals)

theorem Nested.trim {top : Char → Bool} {t : Text} (nested : Nested top t)
    (noEquals : top '=' = false) : Nested top (trim t) :=
  nested.trimStart.trimEnd noEquals

theorem Quoted.getLast?_ne {quote : Char} {t : Text} (quoted : Quoted quote t) :
    t.getLast? ≠ some '\\' := by
  induction quoted with
  | nil => simp
  | @plain c t _ unescaped _ ih =>
    cases t with
    | nil => simpa using unescaped
    | cons d t => rwa [List.getLast?_cons_cons]
  | @escaped c t bounded _ ih =>
    rw [List.getLast?_cons_cons]
    cases t with
    | nil =>
      intro same
      exact bounded (by simpa using same) rfl
    | cons d t => rwa [List.getLast?_cons_cons]

theorem Nested.of_getLast? {top : Char → Bool} {t : Text} (nested : Nested top t) {c : Char}
    (last : t.getLast? = some c) : c ≠ '=' ∧ (isPlain c = true → top c = true) := by
  have ends : ∀ {d : Char} {t : Text}, (d :: t).getLast? = some c →
      (t.getLast? = some c ∨ d = c) := by
    intro d t last
    cases t with
    | nil => exact .inr (by simpa using last)
    | cons e t => exact .inl (by rwa [List.getLast?_cons_cons] at last)
  induction nested with
  | nil => cases last
  | @plain top d t plain admitted _ ih =>
    rcases ends last with last | rfl
    · exact ih last
    · refine ⟨?_, fun _ => admitted⟩
      rintro rfl
      cases plain
  | @equals top t _ some _ ih =>
    obtain ⟨d, t, rfl⟩ := List.exists_cons_of_ne_nil some
    exact ih (by rwa [List.getLast?_cons_cons] at last)
  | @arrow top t _ _ ih =>
    rw [List.getLast?_cons_cons] at last
    rcases ends last with last | rfl
    · exact ih last
    · exact ⟨by decide, fun plain => absurd plain (by decide)⟩
  | @group top opener closer inner t pair _ _ _ ih =>
    rw [← List.cons_append, List.getLast?_append_of_ne_nil _ (by simp)] at last
    rcases ends last with last | rfl
    · exact ih last
    · have facts : ∀ pair ∈ brackets, isPlain pair.2 = false ∧ pair.2 ≠ '=' := by decide
      obtain ⟨notPlain, other⟩ := facts _ pair
      exact ⟨other, fun plain => absurd plain (by simp [notPlain])⟩
  | @literal top quote inner t isQuote _ _ ih =>
    rw [← List.cons_append, List.getLast?_append_of_ne_nil _ (by simp)] at last
    rcases ends last with last | rfl
    · exact ih last
    · refine ⟨?_, fun plain => absurd plain (by simp [isPlain, isQuote])⟩
      rintro rfl
      exact absurd isQuote (by decide)

end TemplateTypes
