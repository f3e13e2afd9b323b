import TemplateTypes.Proofs.TypeText.Members
import TemplateTypes.Proofs.TypeText.Retention
import TemplateTypes.Proofs.TypeText.Splitting

namespace TemplateTypes

open Text

theorem LiteralBody.collapseFrom {quote : Char} {t : Text} (body : LiteralBody quote t)
    (isQuote : isQuote quote = true) (inRun : Bool) :
    LiteralBody quote (Text.collapseFrom inRun t) := by
  have space : ' ' ≠ quote := by
    rintro rfl
    exact absurd isQuote (by decide)
  induction body generalizing inRun with
  | nil => exact .nil
  | @plain c t differs unescaped _ ih =>
    cases blank : isBlank c with
    | false =>
      rw [collapseFrom_cons blank]
      exact .plain differs unescaped (ih false)
    | true =>
      cases inRun with
      | true => simpa [Text.collapseFrom, blank] using ih true
      | false => simpa [Text.collapseFrom, blank] using LiteralBody.plain space (by decide) (ih true)
  | @escaped c t _ ih =>
    rw [collapseFrom_cons (by decide)]
    cases blank : isBlank c with
    | false =>
      rw [collapse, collapseFrom_cons blank]
      exact .escaped (ih false)
    | true => simpa [collapse, Text.collapseFrom, blank] using LiteralBody.escaped (ih true)

theorem collapse_literal {quote : Char} (isQuote : isQuote quote = true) (body : Text) :
    collapse (quote :: (body ++ [quote])) = quote :: (collapse body ++ [quote]) := by
  have solid := isBlank_of_isQuote isQuote
  rw [collapse, collapseFrom_cons solid, collapse, collapseFrom_append_cons solid]
  rfl

theorem Outlined.collapseFrom {t outline : Text} {literals : List Text}
    (outlined : Outlined t literals outline) (inRun : Bool) :
    Outlined (Text.collapseFrom inRun t) (literals.map collapse)
      (Text.collapseFrom inRun outline) := by
  induction outlined generalizing inRun with
  | nil => exact .nil
  | @plain c t outline literals noQuote _ ih =>
    cases blank : isBlank c with
    | false =>
      rw [collapseFrom_cons blank, collapseFrom_cons blank]
      exact .plain noQuote (ih false)
    | true =>
      cases inRun with
      | true => simpa [Text.collapseFrom, blank] using ih true
      | false => simpa [Text.collapseFrom, blank] using Outlined.plain (by decide) (ih true)
  | @literal quote body t outline literals isQuote within _ ih =>
    have solid := isBlank_of_isQuote isQuote
    rw [collapseFrom_cons solid, collapse, collapseFrom_append_cons solid, collapseFrom_cons solid,
      List.map_cons, collapse_literal isQuote]
    exact .literal isQuote (within.collapseFrom isQuote false) (ih false)

theorem Outlined.eq_nil_of_all {p : Char → Bool} (noQuotes : ∀ c, isQuote c = true → p c = false)
    {t outline : Text} {literals : List Text} (outlined : Outlined t literals outline)
    (all : t.all p = true) : literals = [] := by
  induction outlined with
  | nil => rfl
  | plain _ _ ih =>
    rw [List.all_cons, Bool.and_eq_true] at all
    exact ih all.2
  | literal isQuote _ _ _ =>
    rw [List.all_cons, Bool.and_eq_true, noQuotes _ isQuote] at all
    cases all.1

theorem Outlined.dropEndWhile {p : Char → Bool} (noQuotes : ∀ c, isQuote c = true → p c = false)
    {t outline : Text} {literals : List Text} (outlined : Outlined t literals outline) :
    HasLiterals (Text.dropEndWhile p t) literals := by
  induction outlined with
  | nil => exact ⟨[], .nil⟩
  | @plain c t outline literals noQuote rest ih =>
    rw [dropEndWhile_cons]
    split
    · rename_i all
      rw [Outlined.eq_nil_of_all noQuotes (.plain noQuote rest) all]
      exact ⟨[], .nil⟩
    · obtain ⟨left, kept⟩ := ih
      exact ⟨c :: left, .plain noQuote kept⟩
  | @literal quote body t outline literals isQuote within _ ih =>
    obtain ⟨left, kept⟩ := ih
    rw [← List.cons_append, dropEndWhile_append_cons (noQuotes quote isQuote)]
    exact ⟨quote :: left, .literal isQuote within kept⟩

theorem Outlined.trim {t outline : Text} {literals : List Text}
    (outlined : Outlined t literals outline) : HasLiterals (Text.trim t) literals := by
  have front : HasLiterals (trimStart t) literals := by
    induction outlined with
    | nil => exact ⟨[], .nil⟩
    | @plain c t outline literals noQuote rest ih =>
      cases blank : isBlank c with
      | true => simpa [trimStart, blank] using ih
      | false => exact ⟨_, by simpa [trimStart, blank] using Outlined.plain noQuote rest⟩
    | literal isQuote within rest _ =>
      exact ⟨_, by simpa [trimStart, isBlank_of_isQuote isQuote] using
        Outlined.literal isQuote within rest⟩
  obtain ⟨left, kept⟩ := front
  exact kept.dropEndWhile fun _ => isBlank_of_isQuote

theorem outlined_of_allBlank {t : Text} (blank : allBlank t = true) : Outlined t [] t := by
  apply outlined_of_plain
  rw [List.all_eq_true]
  intro c member
  have here : isBlank c = true := List.all_eq_true.mp blank c member
  cases quote : isQuote c with
  | false => rfl
  | true =>
    rw [isBlank_of_isQuote quote] at here
    cases here

theorem Outlined.tidy {t outline : Text} {literals : List Text}
    (outlined : Outlined t literals outline) :
    HasLiterals (TypeText.tidy t) (literals.map collapse) := by
  have noQuotes : ∀ c, isQuote c = true → (c == ';') = false := by
    intro c quote
    simp only [isQuote, Bool.or_eq_true, beq_iff_eq] at quote
    rcases quote with (rfl | rfl) | rfl <;> decide
  obtain ⟨_, trimmed⟩ := (outlined.collapseFrom false).trim
  obtain ⟨_, unended⟩ := trimmed.dropEndWhile noQuotes
  exact unended.trim

inductive HoldLiterals : (parts : List Text) → (literals : List Text) → Prop
  | nil : HoldLiterals [] []
  | cons {part outline : Text} {parts here later : List Text} : Outlined part here outline →
      HoldLiterals parts later → HoldLiterals (part :: parts) (here ++ later)

theorem Holds.holdLiterals {t : Text} {parts : List Text} (holds : Holds t parts)
    (closed : ∀ part ∈ parts, ClosesLiterals part) :
    ∃ literals, HoldLiterals parts literals ∧ HasLiterals t literals := by
  cases holds with
  | nothing blank => exact ⟨[], .nil, t, outlined_of_allBlank blank⟩
  | @part before part behind blankBefore blankBehind _ _ =>
    obtain ⟨literals, outline, outlined⟩ := closed part List.mem_cons_self
    have inner := outlined.append (outlined_of_allBlank blankBehind)
    have whole := (outlined_of_allBlank blankBefore).append inner
    rw [List.nil_append, List.append_nil] at whole
    have single := HoldLiterals.cons outlined .nil
    rw [List.append_nil] at single
    exact ⟨literals, single, _, whole⟩

theorem HoldLiterals.append {parts others literals more : List Text}
    (left : HoldLiterals parts literals) (right : HoldLiterals others more) :
    HoldLiterals (parts ++ others) (literals ++ more) := by
  induction left with
  | nil => exact right
  | cons outlined _ ih =>
    rw [List.append_assoc]
    exact .cons outlined ih

theorem SplitsInto.holdLiterals {s : Scanner} {t : Text} {parts : List Text}
    (splits : SplitsInto '|' s t parts) (closed : ∀ part ∈ parts, ClosesLiterals part) :
    ∃ literals, HoldLiterals parts literals ∧ HasLiterals t literals := by
  induction splits with
  | last _ holds => exact holds.holdLiterals closed
  | cut _ _ holds _ ih =>
    obtain ⟨here, held, _, first⟩ :=
      holds.holdLiterals fun part among => closed part (List.mem_append_left _ among)
    obtain ⟨later, rest, _, second⟩ :=
      ih fun part among => closed part (List.mem_append_right _ among)
    have bar : isQuote '|' = false := by decide
    exact ⟨here ++ later, held.append rest, _, first.append (.plain bar second)⟩

theorem holdLiterals_splitTop {t outline : Text} {literals : List Text}
    (outlined : Outlined t literals outline)
    (closed : ∀ part ∈ splitTop '|' t, ClosesLiterals part) :
    HoldLiterals (splitTop '|' t) literals := by
  obtain ⟨others, held, _, whole⟩ := (splitsInto_pieces '|' .start t).holdLiterals closed
  obtain ⟨rfl, _⟩ := outlined.unique whole
  exact held

theorem HoldLiterals.unionText {parts literals : List Text} (held : HoldLiterals parts literals) :
    HasLiterals (TypeText.unionText parts) literals := by
  induction held with
  | nil => exact ⟨[], .nil⟩
  | @cons part outline parts here later outlined rest ih =>
    cases rest with
    | nil =>
      rw [List.append_nil]
      exact ⟨outline, outlined⟩
    | cons second rest =>
      obtain ⟨_, more⟩ := ih
      have bar : Outlined " | ".toList [] " | ".toList := outlined_of_plain (by decide)
      have whole := (outlined.append bar).append more
      rw [List.append_nil] at whole
      exact ⟨_, whole⟩

theorem HoldLiterals.of_append {parts others all : List Text}
    (held : HoldLiterals (parts ++ others) all) :
    ∃ literals more, HoldLiterals parts literals ∧ HoldLiterals others more ∧
      all = literals ++ more := by
  induction parts generalizing all with
  | nil => exact ⟨[], all, .nil, held, rfl⟩
  | cons part parts ih =>
    cases held with
    | @cons _ _ _ here _ outlined rest =>
      obtain ⟨literals, more, first, second, rfl⟩ := ih rest
      exact ⟨here ++ literals, more, .cons outlined first, second, (List.append_assoc ..).symm⟩

theorem HoldLiterals.eq_nil {n : Nat} {word : Text} {literals : List Text}
    (plain : word.all (!isQuote ·) = true) (held : HoldLiterals (List.replicate n word) literals) :
    literals = [] := by
  induction n generalizing literals with
  | zero =>
    cases held
    rfl
  | succ n ih =>
    cases held with
    | cons outlined rest =>
      rw [ih rest, outlined.eq_nil_of_all (by simp) plain]
      rfl

end TemplateTypes

namespace TemplateTypes.TypeText

open Text

theorem holdLiterals_dropTrailingUndefined {members literals : List Text}
    (held : HoldLiterals members literals) :
    HoldLiterals (dropTrailingUndefined members) literals := by
  obtain ⟨n, whole⟩ := (endsShortened_dropTrailingUndefined members).dropped
  rw [whole] at held
  obtain ⟨_, more, kept, dropped, rfl⟩ := held.of_append
  rw [dropped.eq_nil (by decide), List.append_nil]
  exact kept

theorem outlined_orUnknown {t outline : Text} {literals : List Text}
    (outlined : Outlined t literals outline) :
    HasLiterals (if t.isEmpty then unknown else t) literals := by
  cases t with
  | nil =>
    cases outlined
    exact ⟨unknown, outlined_of_plain (by decide)⟩
  | cons c t => exact ⟨outline, outlined⟩

theorem outlined_canonical {t outline : Text} {literals : List Text}
    (outlined : Outlined t literals outline)
    (closed : ∀ part ∈ splitTop '|' t, ClosesLiterals part) :
    HasLiterals (canonical t) literals := by
  have kept := holdLiterals_dropTrailingUndefined (holdLiterals_splitTop outlined closed)
  cases cut : dropTrailingUndefined (splitTop '|' t) with
  | nil =>
    rw [canonical_of_no_members cut]
    exact outlined_orUnknown outlined
  | cons first more =>
    rw [cut] at kept
    obtain ⟨_, union⟩ := kept.unionText
    rw [canonical_of_members (by simp) cut]
    exact outlined_orUnknown union

def NoneFound (a t : Text) : Prop :=
  ∀ rest, rest ≠ [] → rest <:+ a → afterQualifier? (rest ++ t) = none

/-- Type text with its import qualifiers, and the string literals outside of these. A qualifier
    stands behind no character of a name, closes the literals in it and is found as a whole; nowhere
    else, be it in a literal, is one found. -/
inductive Qualified : (before : Option Char) → (t : Text) → (literals : List Text) → Prop
  | nil {before : Option Char} : Qualified before [] []
  | plain {before : Option Char} {a t : Text} {literals : List Text} :
      a.all (!isQuote ·) = true → NoneFound a t → Qualified (a.getLast?.or before) t literals →
      Qualified before (a ++ t) literals
  | literal {before : Option Char} {quote : Char} {body t : Text} {literals : List Text} :
      isQuote quote = true → LiteralBody quote body → NoneFound body (quote :: t) →
      Qualified (some quote) t literals →
      Qualified before (quote :: (body ++ quote :: t)) ((quote :: (body ++ [quote])) :: literals)
  | qualifier {before : Option Char} {argument t : Text} {literals : List Text} :
      (∀ c ∈ before, isNamePart c = false) → ClosesLiterals argument →
      afterQualifier? ("import(".toList ++ (argument ++ ')' :: '.' :: t)) = some t →
      Qualified (some '.') t literals →
      Qualified before ("import(".toList ++ (argument ++ ')' :: '.' :: t)) literals

theorem noneFound_of_tails {a t : Text}
    (none : ∀ rest ∈ a.tails, rest ≠ [] → afterQualifier? (rest ++ t) = none) : NoneFound a t :=
  fun rest some part => none rest ((List.mem_tails rest a).mpr part) some

theorem withoutQualifiers_append {a t : Text} (none : NoneFound a t) :
    withoutQualifiers (a ++ t) = a ++ withoutQualifiers t := by
  induction a with
  | nil => rfl
  | cons c a ih =>
    have here := none (c :: a) (by simp) (List.suffix_refl _)
    have later := ih fun rest some part => none rest some (part.trans (List.suffix_cons c a))
    rw [List.cons_append] at here ⊢
    rw [withoutQualifiers_cons, here, later]
    rfl

theorem withoutQualifiers_of_isQuote {quote : Char} (isQuote : isQuote quote = true) (t : Text) :
    withoutQualifiers (quote :: t) = quote :: withoutQualifiers t := by
  have differs : ¬ 'i' = quote := by
    rintro rfl
    exact absurd isQuote (by decide)
  have none : afterQualifier? (quote :: t) = none := by simp [afterQualifier?, after?, differs]
  rw [withoutQualifiers_cons, none]

theorem Qualified.hasLiterals {before : Option Char} {t : Text} {literals : List Text}
    (qualified : Qualified before t literals) : HasLiterals (withoutQualifiers t) literals := by
  induction qualified with
  | nil => exact ⟨[], .nil⟩
  | plain plain none _ ih =>
    obtain ⟨_, rest⟩ := ih
    rw [withoutQualifiers_append none]
    exact ⟨_, (outlined_of_plain plain).append rest⟩
  | literal isQuote within none _ ih =>
    obtain ⟨_, rest⟩ := ih
    rw [withoutQualifiers_of_isQuote isQuote, withoutQualifiers_append none,
      withoutQualifiers_of_isQuote isQuote]
    exact ⟨_, .literal isQuote within rest⟩
  | @qualifier _ argument t literals _ _ found _ ih =>
    have whole : "import(".toList ++ (argument ++ ')' :: '.' :: t) =
        'i' :: ("mport(".toList ++ (argument ++ ')' :: '.' :: t)) := rfl
    rw [whole] at found ⊢
    rw [withoutQualifiers_cons, found]
    exact ih

theorem quote_next {s : Scanner} {c : Char} (outside : s.quote = none)
    (noQuote : isQuote c = false) : (s.next c).quote = none := by
  simp only [Scanner.next, outside, noQuote, Bool.false_eq_true, if_false]
  split
  · rfl
  · split <;> rfl

theorem closesLiterals_pieces {t outline : Text} {literals : List Text}
    (outlined : Outlined t literals outline)
    (unslashed : ∀ literal ∈ literals, isSlashed literal = false) {s : Scanner}
    (outside : s.quote = none) : ∀ piece ∈ topPiecesFrom '|' s t, ClosesLiterals piece := by
  induction outlined generalizing s with
  | nil =>
    intro piece member
    obtain rfl := List.mem_singleton.mp member
    exact ⟨[], [], .nil⟩
  | @plain c t _ _ noQuote _ ih =>
    have later := ih unslashed (quote_next outside noQuote)
    rw [topPiecesFrom]
    split
    · exact List.forall_mem_cons.mpr ⟨⟨[], [], .nil⟩, later⟩
    · split
      · rename_i none
        exact absurd none (topPiecesFrom_ne_nil '|' _ t)
      · rename_i piece more pieces
        rw [pieces] at later
        obtain ⟨⟨literals, outline, first⟩, rest⟩ := List.forall_mem_cons.mp later
        exact List.forall_mem_cons.mpr ⟨⟨literals, _, .plain noQuote first⟩, rest⟩
  | @literal quote body t _ _ isQuote within _ ih =>
    obtain ⟨plainly, others⟩ := List.forall_mem_cons.mp unslashed
    have quoted := within.quoted_of_isSlashed isQuote plainly
    have kept := quoted.keeps_literal isQuote outside
    have misses := quoted.misses_literal isQuote outside '|'
    obtain ⟨piece, more, behind, pieces⟩ := topPiecesFrom_whole (misses.whole t.head?)
    have later := ih others (kept.2.trans outside)
    rw [behind] at later
    obtain ⟨⟨literals, outline, first⟩, rest⟩ := List.forall_mem_cons.mp later
    rw [enclosed_append, pieces, ← enclosed_append]
    exact List.forall_mem_cons.mpr ⟨⟨_, _, .literal isQuote within first⟩, rest⟩

theorem unslashed_collapse {t outline : Text} {literals : List Text}
    (outlined : Outlined t literals outline)
    (unslashed : ∀ literal ∈ literals, isSlashed literal = false) :
    ∀ literal ∈ literals.map collapse, isSlashed literal = false := by
  induction outlined with
  | nil => simp
  | plain _ _ ih => exact ih unslashed
  | @literal quote body t _ _ isQuote within _ ih =>
    obtain ⟨plainly, others⟩ := List.forall_mem_cons.mp unslashed
    have quoted := within.quoted_of_isSlashed isQuote plainly
    have spaced := (quoted.collapseFrom isQuote false).getLast?_ne
    refine List.forall_mem_cons.mpr ⟨?_, ih others⟩
    rw [collapse_literal isQuote, isSlashed_literal isQuote]
    exact beq_false_of_ne spaced

theorem closesLiterals_splitTop {t outline : Text} {literals : List Text}
    (outlined : Outlined t literals outline)
    (unslashed : ∀ literal ∈ literals, isSlashed literal = false) :
    ∀ part ∈ splitTop '|' t, ClosesLiterals part := by
  intro part member
  simp only [splitTop, List.mem_filter, List.mem_map] at member
  obtain ⟨⟨piece, cut, rfl⟩, _⟩ := member
  obtain ⟨others, _, closed⟩ :=
    closesLiterals_pieces outlined unslashed (s := .start) rfl piece cut
  exact ⟨others, closed.trim⟩

theorem map_collapse_iff (literals : List Text) :
    literals.map collapse = literals ↔ ∀ literal ∈ literals, SingleSpaced literal := by
  constructor
  · intro same literal member
    rw [← same] at member
    obtain ⟨written, _, rfl⟩ := List.mem_map.mp member
    exact singleSpaced_collapse written
  · intro spaced
    have each := List.map_congr_left fun literal member => (spaced literal member).collapse_eq
    rw [each, List.map_id']

/-- A normalization keeps the literals outside of qualifiers in their order and changes nothing in
    them but their blanks, of which each run becomes one space. For that none of the parts that the
    text is split into may break off inside a literal, which happens only behind one that ends in a
    backslash. -/
theorem normalize_literals_iff {t : Text} {literals : List Text}
    (qualified : Qualified none t literals) :
    ((∀ literal ∈ literals, isSlashed literal = false) →
        ∀ part ∈ splitTop '|' (tidy (withoutQualifiers t)), ClosesLiterals part) ∧
      ((∀ part ∈ splitTop '|' (tidy (withoutQualifiers t)), ClosesLiterals part) →
        HasLiterals (normalize t) (literals.map collapse) ∧
          (HasLiterals (normalize t) literals ↔ ∀ literal ∈ literals, SingleSpaced literal)) := by
  obtain ⟨_, outlined⟩ := qualified.hasLiterals
  obtain ⟨_, tidied⟩ := outlined.tidy
  have unbroken := fun unslashed =>
    closesLiterals_splitTop tidied (unslashed_collapse outlined unslashed)
  refine ⟨unbroken, fun closed => ?_⟩
  have kept : HasLiterals (normalize t) (literals.map collapse) := by
    cases blank : allBlank t with
    | false =>
      rw [normalize, if_neg (by simp [blank])]
      exact outlined_canonical tidied closed
    | true =>
      rw [withoutQualifiers_of_allBlank blank] at outlined
      rw [outlined.eq_nil_of_all (fun _ => isBlank_of_isQuote) blank, normalize, if_pos blank]
      exact ⟨unknown, outlined_of_plain (by decide)⟩
  refine ⟨kept, ?_⟩
  rw [← map_collapse_iff]
  constructor
  · exact kept.unique
  · intro same
    rwa [same] at kept

/-- A qualifier, an `undefined` at the end, and literals with a space and with a quote of another
    kind. -/
theorem normalize_literals_iff_box :
    Qualified none "import(\"./m\").Box<'a b'>|\"it's\" | undefined".toList
        ["'a b'".toList, "\"it's\"".toList] ∧
      normalize "import(\"./m\").Box<'a b'>|\"it's\" | undefined".toList =
        "Box<'a b'> | \"it's\"".toList ∧
      HasLiterals "Box<'a b'> | \"it's\"".toList ["'a b'".toList, "\"it's\"".toList] := by
  have file : Outlined "\"./m\"".toList ["\"./m\"".toList] [doubleQuote] :=
    .literal (by decide) (literalBody_of_plain (t := "./m".toList) (by decide)) .nil
  have ending : Qualified (some doubleQuote) (" | undefined".toList ++ []) [] :=
    .plain (by decide) (noneFound_of_tails (by decide)) .nil
  have second : Qualified (some '|') "\"it's\" | undefined".toList ["\"it's\"".toList] :=
    .literal (by decide) (literalBody_of_plain (t := "it's".toList) (by decide))
      (noneFound_of_tails (by decide)) ending
  have bar : Qualified (some singleQuote) (">|".toList ++ "\"it's\" | undefined".toList)
      ["\"it's\"".toList] :=
    .plain (by decide) (noneFound_of_tails (by decide)) second
  have first : Qualified (some '<') "'a b'>|\"it's\" | undefined".toList
      ["'a b'".toList, "\"it's\"".toList] :=
    .literal (by decide) (literalBody_of_plain (t := "a b".toList) (by decide))
      (noneFound_of_tails (by decide)) bar
  have box : Qualified (some '.') ("Box<".toList ++ "'a b'>|\"it's\" | undefined".toList)
      ["'a b'".toList, "\"it's\"".toList] :=
    .plain (by decide) (noneFound_of_tails (by decide)) first
  have qualified : Qualified none "import(\"./m\").Box<'a b'>|\"it's\" | undefined".toList
      ["'a b'".toList, "\"it's\"".toList] :=
    .qualifier (by simp) ⟨_, _, file⟩ (by decide) box
  have whole : normalize "import(\"./m\").Box<'a b'>|\"it's\" | undefined".toList =
      "Box<'a b'> | \"it's\"".toList := by decide
  obtain ⟨closes, keeps⟩ := normalize_literals_iff qualified
  have spaced : ∀ literal ∈ ["'a b'".toList, "\"it's\"".toList], SingleSpaced literal :=
    (map_collapse_iff _).mp (by decide)
  have kept := (keeps (closes (by decide))).2.mpr spaced
  rw [whole] at kept
  exact ⟨qualified, whole, kept⟩

/-- Two spaces in a literal, a literal that reads like a qualifier, a name that ends like one, and a
    bar in a literal behind one that ends in a backslash. -/
theorem normalize_alters_literals :
    (HasLiterals "'a  b'".toList ["'a  b'".toList] ∧
        ¬ HasLiterals (normalize "'a  b'".toList) ["'a  b'".toList]) ∧
      (HasLiterals "'import(x).y'".toList ["'import(x).y'".toList] ∧
        ¬ HasLiterals (normalize "'import(x).y'".toList) ["'import(x).y'".toList]) ∧
      (HasLiterals "reimport('a').X".toList ["'a'".toList] ∧
        ¬ HasLiterals (normalize "reimport('a').X".toList) ["'a'".toList]) ∧
      (HasLiterals "'\\\\' | 'a|b'".toList ["'\\\\'".toList, "'a|b'".toList] ∧
        ¬ HasLiterals (normalize "'\\\\' | 'a|b'".toList) ["'\\\\'".toList, "'a|b'".toList]) := by
  have single : ∀ body : Text, (body.all fun c => c != singleQuote && c != '\\') = true →
      Outlined (singleQuote :: (body ++ [singleQuote])) [singleQuote :: (body ++ [singleQuote])]
        [singleQuote] :=
    fun body plain => .literal (by decide) (literalBody_of_plain plain) .nil
  have backslash : Outlined "'\\\\'".toList ["'\\\\'".toList] [singleQuote] :=
    .literal (by decide) (.escaped .nil) .nil
  have other : ∀ {t : Text} {read literals : List Text}, HasLiterals t read → read ≠ literals →
      ¬ HasLiterals t literals :=
    fun read differs same => differs (read.unique same)
  have bar : Outlined " | ".toList [] " | ".toList := outlined_of_plain (by decide)
  refine ⟨⟨⟨_, single "a  b".toList (by decide)⟩, ?_⟩,
    ⟨⟨_, single "import(x).y".toList (by decide)⟩, ?_⟩,
    ⟨?_, ?_⟩, ?_, ?_⟩
  · have collapsed : normalize "'a  b'".toList = "'a b'".toList := by decide
    rw [collapsed]
    exact other ⟨_, single "a b".toList (by decide)⟩ (by decide)
  · have stripped : normalize "'import(x).y'".toList = "'y'".toList := by decide
    rw [stripped]
    exact other ⟨_, single "y".toList (by decide)⟩ (by decide)
  · have front : Outlined "reimport(".toList [] "reimport(".toList := outlined_of_plain (by decide)
    have behind : Outlined ").X".toList [] ").X".toList := outlined_of_plain (by decide)
    exact ⟨_, front.append ((single "a".toList (by decide)).append behind)⟩
  · have stripped : normalize "reimport('a').X".toList = "reX".toList := by decide
    rw [stripped]
    exact other ⟨_, outlined_of_plain (by decide)⟩ (by decide)
  · exact ⟨_, backslash.append (bar.append (single "a|b".toList (by decide)))⟩
  · have cut : normalize "'\\\\' | 'a|b'".toList = "'\\\\' | 'a | b'".toList := by decide
    rw [cut]
    exact other ⟨_, backslash.append (bar.append (single "a | b".toList (by decide)))⟩ (by decide)

end TemplateTypes.TypeText
