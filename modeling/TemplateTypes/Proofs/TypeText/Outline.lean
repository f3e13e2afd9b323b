import TemplateTypes.Proofs.TypeText.Scanning

namespace TemplateTypes

open Text

/-- What stands between the quotes of a literal. A backslash escapes whatever character is behind
    it, so that of a run of backslashes each second one is itself escaped. -/
inductive LiteralBody (quote : Char) : Text → Prop
  | nil : LiteralBody quote []
  | plain {c : Char} {t : Text} : c ≠ quote → c ≠ '\\' → LiteralBody quote t →
      LiteralBody quote (c :: t)
  | escaped {c : Char} {t : Text} : LiteralBody quote t → LiteralBody quote ('\\' :: c :: t)

/-- The string literals of a text in their order, and its outline: the text with one quote in the
    place of each literal. -/
inductive Outlined : (t : Text) → (literals : List Text) → (outline : Text) → Prop
  | nil : Outlined [] [] []
  | plain {c : Char} {t outline : Text} {literals : List Text} : isQuote c = false →
      Outlined t literals outline → Outlined (c :: t) literals (c :: outline)
  | literal {quote : Char} {body t outline : Text} {literals : List Text} :
      isQuote quote = true → LiteralBody quote body → Outlined t literals outline →
      Outlined (quote :: (body ++ quote :: t)) ((quote :: (body ++ [quote])) :: literals)
        (quote :: outline)

def HasLiterals (t : Text) (literals : List Text) : Prop :=
  ∃ outline, Outlined t literals outline

def ClosesLiterals (t : Text) : Prop := ∃ literals, HasLiterals t literals

/-- The closing quote stands right behind a backslash, which is then an escaped one. -/
def isSlashed (literal : Text) : Bool := literal.dropLast.getLast? == some '\\'

def Unslashed (t : Text) : Prop :=
  ∀ literals, HasLiterals t literals → ∀ literal ∈ literals, isSlashed literal = false

theorem backslash_ne_of_isQuote {quote : Char} (isQuote : isQuote quote = true) : '\\' ≠ quote := by
  rintro rfl
  exact absurd isQuote (by decide)

theorem LiteralBody.append {quote : Char} {a b : Text} (left : LiteralBody quote a)
    (right : LiteralBody quote b) : LiteralBody quote (a ++ b) := by
  induction left with
  | nil => exact right
  | plain differs unescaped _ ih => exact .plain differs unescaped ih
  | escaped _ ih => exact .escaped ih

theorem literalBody_of_plain {quote : Char} {t : Text}
    (plain : t.all (fun c => c != quote && c != '\\') = true) : LiteralBody quote t := by
  induction t with
  | nil => exact .nil
  | cons c t ih =>
    rw [List.all_cons, Bool.and_eq_true, Bool.and_eq_true] at plain
    exact .plain (by simpa using plain.1.1) (by simpa using plain.1.2) (ih plain.2)

theorem LiteralBody.unique {quote : Char} (isQuote : isQuote quote = true) {a b t u : Text}
    (left : LiteralBody quote a) (right : LiteralBody quote b)
    (same : a ++ quote :: t = b ++ quote :: u) : a = b ∧ t = u := by
  have noBackslash := backslash_ne_of_isQuote isQuote
  induction left generalizing b with
  | nil =>
    cases right with
    | nil => exact ⟨rfl, (List.cons.inj same).2⟩
    | plain differs _ _ => exact absurd (List.cons.inj same).1.symm differs
    | escaped _ => exact absurd (List.cons.inj same).1.symm noBackslash
  | @plain c a differs unescaped _ ih =>
    cases right with
    | nil => exact absurd (List.cons.inj same).1 differs
    | plain _ _ right =>
      obtain ⟨rfl, rest⟩ := List.cons.inj same
      obtain ⟨rfl, rfl⟩ := ih right rest
      exact ⟨rfl, rfl⟩
    | escaped _ => exact absurd (List.cons.inj same).1 unescaped
  | @escaped c a _ ih =>
    cases right with
    | nil => exact absurd (List.cons.inj same).1 noBackslash
    | plain _ unescaped _ => exact absurd (List.cons.inj same).1.symm unescaped
    | escaped right =>
      obtain ⟨rfl, rest⟩ := List.cons.inj (List.cons.inj same).2
      obtain ⟨rfl, rfl⟩ := ih right rest
      exact ⟨rfl, rfl⟩

theorem LiteralBody.quoted {quote : Char} {t : Text} (body : LiteralBody quote t)
    (ends : t.getLast? ≠ some '\\') : Quoted quote t := by
  have later : ∀ {c : Char} {t : Text}, (c :: t).getLast? ≠ some '\\' → t.getLast? ≠ some '\\' := by
    intro c t ends
    cases t with
    | nil => simp
    | cons d t => rwa [List.getLast?_cons_cons] at ends
  induction body with
  | nil => exact .nil
  | plain differs unescaped _ ih => exact .plain differs unescaped (ih (later ends))
  | @escaped c t _ ih =>
    rw [List.getLast?_cons_cons] at ends
    refine .escaped ?_ (ih (later ends))
    rintro rfl rfl
    exact ends rfl

theorem isSlashed_literal {quote : Char} (isQuote : isQuote quote = true) (body : Text) :
    isSlashed (quote :: (body ++ [quote])) = (body.getLast? == some '\\') := by
  have noBackslash := backslash_ne_of_isQuote isQuote
  rw [isSlashed, ← List.cons_append, List.dropLast_concat]
  cases body with
  | nil => simp [Ne.symm noBackslash]
  | cons c body => rw [List.getLast?_cons_cons]

theorem LiteralBody.quoted_of_isSlashed {quote : Char} {body : Text}
    (isQuote : isQuote quote = true) (within : LiteralBody quote body)
    (unslashed : isSlashed (quote :: (body ++ [quote])) = false) : Quoted quote body := by
  rw [isSlashed_literal isQuote] at unslashed
  exact within.quoted (by simpa using unslashed)

theorem outlined_of_plain {t : Text} (plain : t.all (!isQuote ·) = true) : Outlined t [] t := by
  induction t with
  | nil => exact .nil
  | cons c t ih =>
    rw [List.all_cons, Bool.and_eq_true, Bool.not_eq_true'] at plain
    exact .plain plain.1 (ih plain.2)

theorem Outlined.append {a b o p : Text} {first more : List Text} (left : Outlined a first o)
    (right : Outlined b more p) : Outlined (a ++ b) (first ++ more) (o ++ p) := by
  induction left with
  | nil => exact right
  | plain noQuote _ ih => exact .plain noQuote ih
  | literal quote body _ ih =>
    rw [List.cons_append, List.append_assoc, List.cons_append]
    exact .literal quote body ih

theorem Outlined.unique {t o p : Text} {literals others : List Text}
    (left : Outlined t literals o) (right : Outlined t others p) : literals = others ∧ o = p := by
  induction left generalizing others p with
  | nil =>
    cases right
    exact ⟨rfl, rfl⟩
  | plain noQuote _ ih =>
    cases right with
    | plain _ right =>
      obtain ⟨rfl, rfl⟩ := ih right
      exact ⟨rfl, rfl⟩
    | literal quote _ _ =>
      rw [quote] at noQuote
      cases noQuote
  | @literal quote body t _ _ isQuote within _ ih =>
    generalize whole : quote :: (body ++ quote :: t) = text at right
    cases right with
    | nil => cases whole
    | plain noQuote _ =>
      obtain ⟨rfl, _⟩ := List.cons.inj whole
      rw [isQuote] at noQuote
      cases noQuote
    | literal _ other right =>
      obtain ⟨rfl, same⟩ := List.cons.inj whole
      obtain ⟨rfl, rfl⟩ := within.unique isQuote other same
      obtain ⟨rfl, rfl⟩ := ih right
      exact ⟨rfl, rfl⟩

theorem HasLiterals.unique {t : Text} {literals others : List Text}
    (left : HasLiterals t literals) (right : HasLiterals t others) : literals = others := by
  obtain ⟨_, left⟩ := left
  obtain ⟨_, right⟩ := right
  exact (left.unique right).1

end TemplateTypes
