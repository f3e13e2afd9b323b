import TemplateTypes.Proofs.Text.Names
import TemplateTypes.Proofs.Text.Pieces
import TemplateTypes.Proofs.TypeText.Scanning
import TemplateTypes.TypeText.Signature

namespace TemplateTypes

open Text TypeText

def spaceBefore (t : Text) : Text := if t.isEmpty then [] else ' ' :: t

theorem trimEnd_space (t : Text) : trimEnd (' ' :: t) = spaceBefore (trimEnd t) := by
  have space : isBlank ' ' = true := by decide
  rw [trimEnd_cons, allBlank_cons, space, Bool.true_and]
  cases blank : allBlank t with
  | true => simp [spaceBefore, trimEnd_eq_nil_iff.mpr blank]
  | false =>
    have some : trimEnd t ≠ [] := by simp [trimEnd_eq_nil_iff, blank]
    simp [spaceBefore, some]

theorem trim_spaceBefore {t : Text} (trimmed : Trimmed t) : trim (spaceBefore t) = t := by
  cases t with
  | nil => rfl
  | cons c t => exact trimmed.trim_eq

theorem trimmed_colon {t : Text} (trimmed : Trimmed t) : Trimmed (':' :: spaceBefore t) := by
  constructor
  · rintro c ⟨⟩
    decide
  · cases t with
    | nil =>
      rintro c ⟨⟩
      decide
    | cons c t => simpa [spaceBefore, List.getLast?_cons_cons] using trimmed.back

theorem trimStart_of_solid {c : Char} (solid : isBlank c = false) (t : Text) :
    trimStart (c :: t) = c :: t := by
  simp [trimStart, solid]

theorem collapseFrom_true (t : Text) : collapseFrom true t = collapse (trimStart t) := by
  have front := (singleSpaced_collapseFrom true t).2 rfl
  rw [← trimStart_collapseFrom true t]
  exact (Trimmed.dropWhile_blank front).symm

theorem collapse_space (t : Text) : collapse (' ' :: t) = ' ' :: collapse (trimStart t) :=
  congrArg (' ' :: ·) (collapseFrom_true t)

theorem trimEnd_dropSemicolons {t : Text} (trimmed : Trimmed t) :
    trimEnd (dropEndWhile (· == ';') (spaceBefore t)) =
      spaceBefore (trim (dropEndWhile (· == ';') t)) := by
  cases t with
  | nil => rfl
  | cons c t =>
    have kept : dropEndWhile (· == ';') (spaceBefore (c :: t)) =
        ' ' :: dropEndWhile (· == ';') (c :: t) := by
      show dropEndWhile (· == ';') (' ' :: c :: t) = _
      rw [dropEndWhile_cons, if_neg (by simp)]
    have front : ∀ d ∈ (dropEndWhile (· == ';') (c :: t)).head?, isBlank d = false := by
      intro d first
      exact trimmed.front d (head?_of_isPrefix (isPrefix_dropEndWhile _ _) d first)
    rw [kept, trimEnd_space, trim, trimStart, Trimmed.dropWhile_blank front]

theorem trim_collapse_colon {h : Text} (visible : allBlank h = false) (t : Text) :
    trim (collapse (h ++ ':' :: ' ' :: t)) =
      trimStart (collapse h) ++ ':' :: spaceBefore (trim (collapse t)) := by
  have colon : isBlank ':' = false := by decide
  have shown : allBlank (collapse h) = false := (allBlank_collapseFrom false h).trans visible
  have front : trimEnd (collapse (trimStart t)) = trim (collapse t) :=
    congrArg trimEnd (trimStart_collapseFrom false t).symm
  rw [collapse, collapseFrom_append_cons colon, ← collapse, trim, trimStart_append shown, trimEnd,
    dropEndWhile_append_cons colon, ← trimEnd, collapse_space, trimEnd_space, front]

theorem tidy_header {c : Char} (solid : isBlank c = false) (h t : Text) :
    tidy (c :: h ++ ':' :: ' ' :: t) = collapse (c :: h) ++ ':' :: spaceBefore (tidy t) := by
  have colon : isBlank ':' = false := by decide
  have visible : allBlank (c :: h) = false := by rw [allBlank_cons, solid, Bool.false_and]
  have kept : collapse (c :: h) = c :: collapse h := by simp [collapse, collapseFrom, solid]
  have front : ∀ u, trimStart (collapse (c :: h) ++ u) = collapse (c :: h) ++ u := by
    intro u
    rw [kept, List.cons_append, trimStart_of_solid solid]
  have whole := front []
  rw [List.append_nil] at whole
  have cut := dropEndWhile_append_cons (p := (· == ';')) (c := ':') (by decide)
  rw [tidy, trim_collapse_colon visible, whole, cut, trim, front, trimEnd,
    dropEndWhile_append_cons colon, ← trimEnd, trimEnd_dropSemicolons (trimmed_trim _)]
  rfl

namespace Signature

theorem withoutLabel_label {first : Char} {label : Text} (letter : first.isAlpha = true)
    (word : ∀ c ∈ label, (isWord c || c == ' ') = true) (t : Text) :
    withoutLabel ('(' :: first :: (label ++ ')' :: t)) = trimStart t := by
  have stops : isWord ')' = false := by decide
  have passed : (label ++ ')' :: t).dropWhile (fun d => isWord d || d == ' ') = ')' :: t := by
    rw [List.dropWhile_append_of_pos word]
    simp [stops]
  rw [withoutLabel, if_pos letter, passed]
  rfl

theorem withoutModifiers_sign {c : Char} (sign : c ∈ signs) {a : Text} (oneWord : ' ' ∉ a)
    (t : Text) : withoutModifiers (a ++ c :: t) = a ++ c :: t := by
  have plain : (modifiers.all fun word => signs.all fun c => !word.contains c) = true := by
    decide +kernel
  have kept : ∀ {word : Text} {more : List Text}, c ∈ word →
      dropModifiers (word :: more) = word :: more := by
    intro word more inside
    have noModifier : word ∉ modifiers := by
      intro member
      have absent := List.all_eq_true.mp (List.all_eq_true.mp plain word member) c sign
      simp [inside] at absent
    cases more with
    | nil => rfl
    | cons next words => exact if_neg noModifier
  have solid : ' ' ≠ c := by
    rintro rfl
    exact absurd sign (by decide)
  obtain ⟨piece, more, rest⟩ := List.exists_cons_of_ne_nil (pieces_ne_nil ' ' t)
  have free : ' ' ∉ a ++ [c] := by simp [oneWord, solid]
  have first := pieces_append free rest
  have whole := join_pieces ' ' (a ++ [c] ++ t)
  rw [first] at whole
  rw [List.append_cons, withoutModifiers, first, kept (by simp), whole]

theorem collapse_labelled {first : Char} {label u : Text} (letter : first.isAlpha = true)
    (word : ∀ c ∈ label, isWord c = true) (front : ∀ c ∈ u.head?, isBlank c = false) :
    collapse ('(' :: first :: (label ++ ')' :: ' ' :: u)) =
      '(' :: first :: (label ++ ')' :: ' ' :: collapse u) := by
  have closes : isBlank ')' = false := by decide
  have start : isNamePart first = true := isNamePart_of_isNameStart (by simp [isNameStart, letter])
  have solid : ∀ c ∈ '(' :: first :: label, isBlank c = false := by
    intro c member
    rcases List.mem_cons.mp member with rfl | member
    · decide
    · rcases List.mem_cons.mp member with rfl | member
      · exact namesOnly_isNamePart.solid _ start
      · exact namesOnly_isNamePart.solid c (by simp [isNamePart, word c member])
  have behind : collapse (' ' :: u) = ' ' :: collapse u := by
    rw [collapse_space, trimStart, Trimmed.dropWhile_blank front]
  rw [← List.cons_append, ← List.cons_append, collapse, collapseFrom_append_cons closes, ← collapse,
    collapse_of_solid solid, behind]
  rfl

/-- Behind a label a dotted name stands first, and from there on the signature is read as it is
    but for its blanks. -/
theorem withoutModifiers_withoutLabel_tidy {first : Char} {label owner : Text}
    (letter : first.isAlpha = true) (word : label.all isWord = true) (some : owner ≠ [])
    (solid : ∀ c ∈ owner, isBlank c = false) (rest t : Text) :
    withoutModifiers (withoutLabel (tidy ('(' :: first :: (label ++ ')' :: ' ' ::
      (owner ++ '.' :: rest) ++ ':' :: ' ' :: t)))) =
        owner ++ '.' :: collapse rest ++ ':' :: spaceBefore (tidy t) := by
  rw [List.all_eq_true] at word
  have dot : isBlank '.' = false := by decide
  have oneWord : ' ' ∉ owner := fun member => absurd (solid ' ' member) (by decide)
  have front : ∀ u, ∀ c ∈ (owner ++ u).head?, isBlank c = false := by
    obtain ⟨c, owner, rfl⟩ := List.exists_cons_of_ne_nil some
    rintro u _ ⟨⟩
    exact solid c List.mem_cons_self
  have tidied := tidy_header (c := '(') (by decide)
    (first :: (label ++ ')' :: ' ' :: (owner ++ '.' :: rest))) t
  rw [collapse_labelled letter word (front _)] at tidied
  have names : collapse (owner ++ '.' :: rest) = owner ++ '.' :: collapse rest := by
    rw [collapse, collapseFrom_append_cons dot, ← collapse, collapse_of_solid solid]
  have behind : ∀ u, trimStart (' ' :: (owner ++ u)) = owner ++ u := by
    intro u
    exact Trimmed.dropWhile_blank (front u)
  show withoutModifiers (withoutLabel (tidy ('(' ::
    (first :: (label ++ ')' :: ' ' :: (owner ++ '.' :: rest))) ++ ':' :: ' ' :: t))) = _
  rw [tidied, names]
  simp only [List.cons_append, List.append_assoc]
  rw [withoutLabel_label letter (fun c member => by simp [word c member]), behind,
    withoutModifiers_sign (by decide) oneWord]

theorem afterMemberPart_cons {c : Char} (other : c ≠ '.') (t : Text) :
    afterMemberPart (c :: t) = if isNamePart c then afterMemberPart t else c :: t := by
  rw [afterMemberPart]
  simp [other]

theorem afterMemberPart_colon (a t : Text) :
    ∃ rest, rest <:+ a ∧ afterMemberPart (a ++ ':' :: t) = rest ++ ':' :: t := by
  have noStart : isMemberStart ':' = false := by decide
  have noPart : isNamePart ':' = false := by decide
  induction length : a.length using Nat.strongRecOn generalizing a with
  | ind n ih =>
    cases a with
    | nil => exact ⟨[], List.suffix_refl [], by simp [afterMemberPart_cons, noPart]⟩
    | cons c a =>
      rw [List.length_cons] at length
      by_cases dot : c = '.'
      · subst dot
        cases a with
        | nil => exact ⟨['.'], List.suffix_refl _, by simp [afterMemberPart, noStart]⟩
        | cons c a =>
          rw [List.length_cons] at length
          cases starts : isMemberStart c with
          | true =>
            obtain ⟨rest, behind, left⟩ := ih a.length (by omega) a rfl
            refine ⟨rest, behind.trans (List.suffix_append ['.', c] a), ?_⟩
            simpa [afterMemberPart, starts] using left
          | false => exact ⟨'.' :: c :: a, List.suffix_refl _, by simp [afterMemberPart, starts]⟩
      · cases part : isNamePart c with
        | true =>
          obtain ⟨rest, behind, left⟩ := ih a.length (by omega) a rfl
          refine ⟨rest, behind.trans (List.suffix_cons c a), ?_⟩
          simpa [afterMemberPart_cons dot, part] using left
        | false => exact ⟨c :: a, List.suffix_refl _, by simp [afterMemberPart_cons dot, part]⟩

theorem dropWhile_colon {p : Char → Bool} (stops : p ':' = false) (a t : Text) :
    ∃ rest, rest <:+ a ∧ (a ++ ':' :: t).dropWhile p = rest ++ ':' :: t := by
  induction a with
  | nil => exact ⟨[], List.suffix_refl [], by simp [stops]⟩
  | cons c a ih =>
    cases goes : p c with
    | true =>
      obtain ⟨rest, behind, left⟩ := ih
      exact ⟨rest, behind.trans (List.suffix_cons c a), by simpa [goes] using left⟩
    | false => exact ⟨c :: a, List.suffix_refl _, by simp [goes]⟩

theorem methodTail?_eq_none {a : Text} (noList : ∀ c ∈ a, c ≠ '(' ∧ c ≠ '<') (t : Text) :
    methodTail? (a ++ ':' :: t) = none := by
  have noStart : isMemberStart ':' = false := by decide
  cases a with
  | nil => simp [methodTail?, afterMember?, noStart]
  | cons c a =>
    cases starts : isMemberStart c with
    | false => simp [methodTail?, afterMember?, starts]
    | true =>
      obtain ⟨name, inName, read⟩ := afterMemberPart_colon a t
      obtain ⟨rest, inRest, left⟩ :=
        dropWhile_colon (p := fun c => c == '?' || c == '!' || c == ' ') (by decide) name t
      have plain : ∀ d ∈ rest, d ≠ '(' ∧ d ≠ '<' := fun d member =>
        noList d (List.mem_cons_of_mem c (inName.subset (inRest.subset member)))
      have member : afterMember? (c :: a ++ ':' :: t) = some (name ++ ':' :: t) := by
        simp [afterMember?, starts, read]
      rw [methodTail?, member]
      simp only [left]
      cases rest with
      | nil => rfl
      | cons d rest =>
        obtain ⟨noParen, noAngle⟩ := plain d List.mem_cons_self
        simp [afterTypeParameters, noParen, noAngle]

def isMemberName : Text → Bool
  | [] => false
  | c :: rest => isMemberStart c && rest.all isNamePart

theorem afterMemberPart_append {a : Text} (part : ∀ c ∈ a, isNamePart c = true) (t : Text) :
    afterMemberPart (a ++ t) = afterMemberPart t := by
  induction a with
  | nil => rfl
  | cons c a ih =>
    have here := part c List.mem_cons_self
    have noDot : c ≠ '.' := by
      rintro rfl
      exact absurd here (by decide)
    have rest := ih fun d member => part d (List.mem_cons_of_mem c member)
    rw [List.cons_append, afterMemberPart_cons noDot, if_pos here, rest]

theorem methodTail?_of_isMemberName {owner name : Text} (readable : isMemberName owner = true)
    (named : IsName name) (t : Text) :
    methodTail? (owner ++ '.' :: (name ++ '(' :: t)) = some ('(' :: t) := by
  have noPart : isNamePart '(' = false := by decide
  cases owner with
  | nil => cases readable
  | cons c owner =>
    rw [isMemberName, Bool.and_eq_true, List.all_eq_true] at readable
    obtain ⟨first, name, rfl⟩ := List.exists_cons_of_ne_nil named.nonempty
    have starts : isMemberStart first = true := by
      have start := (Option.ite_none_right_eq_some.mp named).1
      simp [isMemberStart, start]
    have part : ∀ c ∈ name, isNamePart c = true := fun c member =>
      named.all c (List.mem_cons_of_mem first member)
    have read : afterMemberPart (owner ++ '.' :: (first :: name ++ '(' :: t)) = '(' :: t := by
      rw [afterMemberPart_append readable.2, List.cons_append, afterMemberPart, if_pos starts,
        afterMemberPart_append part, afterMemberPart_cons (by decide), noPart]
      rfl
    rw [methodTail?, List.cons_append, afterMember?, if_pos readable.1, read]
    rfl

theorem afterMemberPart_stops {a : Text} (noDot : '.' ∉ a)
    (other : a.all isNamePart = false) (t : Text) :
    ∃ c rest, c ∈ a ∧ isNamePart c = false ∧ afterMemberPart (a ++ t) = c :: rest := by
  induction a with
  | nil => cases other
  | cons c a ih =>
    have differs : c ≠ '.' := fun same => noDot (by simp [same])
    cases part : isNamePart c with
    | true =>
      have later : a.all isNamePart = false := by simpa [part] using other
      obtain ⟨d, rest, member, stops, read⟩ :=
        ih (fun member => noDot (List.mem_cons_of_mem c member)) later
      refine ⟨d, rest, List.mem_cons_of_mem c member, stops, ?_⟩
      simpa [afterMemberPart_cons differs, part] using read
    | false =>
      exact ⟨c, a ++ t, List.mem_cons_self, part, by simp [afterMemberPart_cons differs, part]⟩

theorem methodTail?_of_not_isMemberName {owner : Text}
    (named : ∀ c ∈ owner, isSourceNamePart c = true) (some : owner ≠ [])
    (unreadable : isMemberName owner = false) (t : Text) :
    methodTail? (owner ++ '.' :: t) = none := by
  have facts := namesOnly_isSourceNamePart
  have other : ∀ c ∈ owner, ∀ d ∈ signs, c ≠ d := by
    rintro c member _ sign rfl
    exact facts.plain c (named c member) sign
  obtain ⟨c, owner, rfl⟩ := List.exists_cons_of_ne_nil some
  cases starts : isMemberStart c with
  | false => simp [methodTail?, afterMember?, starts]
  | true =>
    have stops : owner.all isNamePart = false := by simpa [isMemberName, starts] using unreadable
    have noDot : '.' ∉ owner := fun member =>
      other '.' (List.mem_cons_of_mem c member) '.' (by decide) rfl
    obtain ⟨d, rest, member, _, read⟩ := afterMemberPart_stops noDot stops ('.' :: t)
    have inOwner : d ∈ c :: owner := List.mem_cons_of_mem c member
    have noBlank : d ≠ ' ' := by
      rintro rfl
      exact absurd (facts.solid ' ' (named ' ' inOwner)) (by decide)
    have noMark : d ≠ '?' := other d inOwner '?' (by decide)
    have noBang : d ≠ '!' := other d inOwner '!' (by decide)
    have noParen : d ≠ '(' := other d inOwner '(' (by decide)
    have noAngle : d ≠ '<' := other d inOwner '<' (by decide)
    simp [methodTail?, afterMember?, starts, read, noBlank, noMark, noBang, afterTypeParameters,
      noParen, noAngle]

theorem findTop?_of_nested {h : Text} (nested : Nested (· != ':') h) (t : Text) :
    findTop? ':' (h ++ ':' :: t) 0 = some h.length := by
  have start : Scanner.at (h ++ ':' :: t) 0 = .start := rfl
  have seen : (Scanner.start.run h).seesTop ':' = true := by
    rw [nested.run rfl]
    rfl
  have misses := nested.misses ':' (s := .start) rfl (.inr (by decide))
  rw [findTop?, start, List.drop_zero, findTopFrom_append misses, findTopFrom, if_pos (by simp [seen])]
  simp

theorem findTop?_eq_none {h : Text} (nested : Nested (· != ':') h) : findTop? ':' h 0 = none := by
  have misses := nested.misses ':' (s := .start) rfl (.inr (by decide))
  have start : Scanner.at h 0 = .start := rfl
  rw [findTop?, start, List.drop_zero, findTopFrom_of_misses misses]
  rfl

theorem propertyType_header {h : Text} (nested : Nested (· != ':') h) (t : Text) :
    propertyType (h ++ ':' :: t) = ⟨trim t, endsWith (trimEnd h) ['?']⟩ := by
  rw [propertyType, findTop?_of_nested nested]
  simp

theorem withoutDefault_of_nested {top : Char → Bool} {t : Text} (nested : Nested top t)
    (noEquals : top '=' = false) : withoutDefault t = t := by
  have start : Scanner.at t 0 = .start := rfl
  unfold withoutDefault
  split
  · rfl
  · rename_i i found
    rw [findTop?, start, List.drop_zero] at found
    obtain ⟨j, first, rfl⟩ := Option.map_eq_some_iff.mp found
    rw [Nat.add_zero, nested.arrow_of_findTopFrom noEquals rfl first]
    rfl

theorem parameterType_untyped {h : Text} (nested : Nested (· != ':') h) :
    parameterType h = ⟨TypeText.any, endsWith (trimEnd h) ['?']⟩ := by
  rw [parameterType, findTop?_eq_none nested]

theorem parameterType_header {h : Text} (nested : Nested (· != ':') h) (t : Text) :
    parameterType (h ++ ':' :: t) = ⟨trim (withoutDefault t), endsWith (trimEnd h) ['?']⟩ := by
  rw [parameterType, findTop?_of_nested nested]
  simp

theorem parameterType_typed {h t : Text} (nested : Nested (· != ':') h) {top : Char → Bool}
    (type : Nested top t) (noEquals : top '=' = false) :
    parameterType (h ++ ':' :: t) = ⟨trim t, endsWith (trimEnd h) ['?']⟩ := by
  rw [parameterType_header nested, withoutDefault_of_nested type noEquals]

theorem splitTop_first {top : Char → Bool} {a : Text} (nested : Nested top a)
    (noComma : top ',' = false) (visible : allBlank a = false) (t : Text) :
    splitTop ',' a = [trim a] ∧ ∃ more, splitTop ',' (a ++ ',' :: t) = trim a :: more := by
  have shown : (trim a).isEmpty = false := by
    have some : trim a ≠ [] := by simp [trim_eq_nil_iff, visible]
    simpa using some
  have misses := nested.misses ',' (s := .start) rfl (.inr ⟨noComma, by decide⟩)
  constructor
  · simp [splitTop, topPiecesFrom_of_whole (misses.whole none), shown]
  · have cuts : (Scanner.start.run a).cuts ',' ',' t = true := by
      rw [nested.run rfl]
      rfl
    rw [splitTop, topPiecesFrom_cut (misses.whole _) cuts]
    simp [shown]

theorem methodType_parens {inner : Text} (balanced : Balanced inner) (t : Text) :
    (∀ first more, splitTop ',' inner = first :: more →
        methodType ('(' :: (inner ++ ')' :: t)) = parameterType first) ∧
      ∀ result, splitTop ',' inner = [] → trim t = ':' :: result →
        methodType ('(' :: (inner ++ ')' :: t)) = ⟨trim result, false⟩ := by
  have close : matchingParen? ('(' :: (inner ++ ')' :: t)) 0 = some (inner.length + 1) := by
    have start : Scanner.at ('(' :: (inner ++ ')' :: t)) 0 = .start := rfl
    rw [matchingParen?, start, List.drop_zero, balanced.matchingParenFrom rfl]
    rfl
  have inside : (('(' :: (inner ++ ')' :: t)).take (inner.length + 1)).drop 1 = inner := by simp
  have behind : ('(' :: (inner ++ ')' :: t)).drop (inner.length + 1 + 1) = t := by simp
  constructor
  · intro first more list
    simp only [methodType, close, inside, list]
  · intro result list typed
    simp only [methodType, close, inside, behind, list, typed]

end Signature

end TemplateTypes
