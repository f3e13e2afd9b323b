import TemplateTypes.Proofs.Markdown.Fence
import TemplateTypes.Proofs.Text.Search
import TemplateTypes.Proofs.TypeText.Normal
import TemplateTypes.Proofs.TypeText.Signature
import TemplateTypes.Resolver.Local

namespace TemplateTypes

open Text TypeText

namespace MemberInfo

def typeText (m : MemberInfo) : Text :=
  match m.type with
  | some (c :: rest) => c :: rest
  | _ => TypeText.any

def header (m : MemberInfo) (owner : Text) : Text :=
  owner ++ '.' :: (m.name ++ if m.optional then ['?'] else [])

end MemberInfo

theorem Walk.render_property (owner : Text) {m : MemberInfo} (property : m.kind = .property) :
    Walk.render owner m =
      "(property) ".toList ++ (m.header owner ++ ':' :: ' ' :: m.typeText) := by
  obtain ⟨name, kind, type, parameters, optional⟩ := m
  cases property
  rcases type with _ | _ | ⟨c, type⟩ <;>
    simp [Walk.render, MemberInfo.header, MemberInfo.typeText]

/-- A header is one word without colons: two names, the dot between them and the mark of an
    optional member. -/
theorem MemberInfo.mem_header {owner : Text} {m : MemberInfo}
    (ownerNamed : Source.IsIdentifier owner) (named : IsName m.name) :
    ∀ c ∈ m.header owner, isBlank c = false ∧ isPlain c = true ∧ c ≠ ':' := by
  intro c member
  have parts : c ∈ owner ∨ c = '.' ∨ c ∈ m.name ∨ c = '?' := by
    rw [MemberInfo.header] at member
    split at member
    · simpa using member
    · simp only [List.append_nil, List.mem_append, List.mem_cons] at member
      tauto
  have ofName : ∀ {p : Char → Bool}, NamesOnly p → p c = true →
      isBlank c = false ∧ isPlain c = true ∧ c ≠ ':' := by
    intro p names part
    have plain := names.plain c part
    have noColon : c ≠ ':' := fun same => plain (by simp [same, signs])
    exact ⟨names.solid c part, isPlain_of_not_mem_signs plain, noColon⟩
  rcases parts with member | rfl | member | rfl
  · exact ofName namesOnly_isSourceNamePart (ownerNamed.all c member)
  · decide
  · exact ofName namesOnly_isNamePart (named.all c member)
  · decide

theorem Walk.render_unfenced {owner : Text} {m : MemberInfo}
    (ownerNamed : Source.IsIdentifier owner) (property : m.kind = .property)
    (named : IsName m.name) (unfenced : ¬ Markdown.fence <:+: m.typeText) :
    find? Markdown.fence (Walk.render owner m) = none := by
  have parts : Walk.render owner m =
      ("(property) ".toList ++ m.header owner ++ [':']) ++ ' ' :: m.typeText := by
    rw [Walk.render_property owner property]
    simp
  have noBacktick : backtick ∉ "(property) ".toList ++ m.header owner ++ [':'] := by
    intro member
    rcases List.mem_append.mp member with member | member
    · rcases List.mem_append.mp member with member | member
      · exact absurd member (by decide)
      · exact absurd (MemberInfo.mem_header ownerNamed named _ member).2.1 (by decide)
    · exact absurd member (by decide)
  rw [parts, find?_append_separator (by decide) (by decide),
    find?_eq_none_of_not_mem (by decide) noBacktick, find?_eq_none_of_not_isInfix unfenced]
  rfl

theorem codeBlock?_fenced {signature : Text} (unfenced : find? Markdown.fence signature = none)
    (visible : allBlank signature = false) :
    Markdown.codeBlock? (Local.fenced signature) = some (trim signature) := by
  have opened : Markdown.afterOpening? (Local.fenced signature) =
      some (signature ++ '\n' :: Markdown.fence) := rfl
  have closed : find? Markdown.fence (signature ++ '\n' :: Markdown.fence) =
      some (signature.length + 1) := by
    rw [find?_append_separator (by decide) (by decide), unfenced,
      find?_of_isPrefix (List.prefix_refl _)]
    simp
  have content : Markdown.untilFence? (signature ++ '\n' :: Markdown.fence) = some signature := by
    have line : (signature ++ '\n' :: Markdown.fence).take (signature.length + 1) =
        signature ++ ['\n'] := by
      simp [List.take_append, List.take_of_length_le]
    have ends : endsWith (signature ++ ['\n']) ['\n'] = true := by simp [endsWith]
    simp [Markdown.untilFence?, closed, line, ends]
  have first : Markdown.firstBlock? (Local.fenced signature) = some signature := by
    have starts : Local.fenced signature = backtick :: (Local.fenced signature).tail := rfl
    rw [starts, Markdown.firstBlock?, ← starts, opened, Option.bind_some, content]
  exact Markdown.codeBlock?_eq_some_iff.mpr ⟨signature, first, visible, rfl⟩

theorem Signature.declared_render_property {owner : Text} {m : MemberInfo}
    (ownerNamed : Source.IsIdentifier owner) (property : m.kind = .property)
    (named : IsName m.name) :
    Signature.declared (Walk.render owner m) = ⟨tidy m.typeText, m.optional⟩ := by
  have header := MemberInfo.mem_header ownerNamed named
  have mark : ∀ c ∈ m.name ++ (if m.optional then ['?'] else []), isBlank c = false := by
    intro c member
    exact (header c (List.mem_append_right owner (List.mem_cons_of_mem '.' member))).1
  have shown : withoutModifiers (withoutLabel (tidy (Walk.render owner m))) =
      m.header owner ++ ':' :: spaceBefore (tidy m.typeText) := by
    have letter : 'p'.isAlpha = true := by decide
    have word : "roperty".toList.all isWord = true := by decide
    have read := withoutModifiers_withoutLabel_tidy letter word ownerNamed.nonempty
      (fun c member => (header c (List.mem_append_left _ member)).1)
      (m.name ++ if m.optional then ['?'] else []) m.typeText
    rw [collapse_of_solid mark] at read
    rw [Walk.render_property owner property]
    exact read
  have noList : ∀ c ∈ m.header owner, c ≠ '(' ∧ c ≠ '<' := by
    intro c member
    have plain := (header c member).2.1
    constructor <;> rintro rfl <;> cases plain
  have nested : Nested (· != ':') (m.header owner) :=
    nested_of_plain (by simpa using fun c member => (header c member).2)
  have ends : endsWith (trimEnd (m.header owner)) ['?'] = m.optional := by
    have kept : trimEnd (m.header owner) = m.header owner :=
      dropEndWhile_of_getLast? fun c last => (header c (List.mem_of_mem_getLast? last)).1
    rw [kept, endsWith_single, MemberInfo.header]
    cases optional : m.optional with
    | true => simp [List.getLast?_append, List.getLast?_cons]
    | false =>
      obtain ⟨name, last, whole⟩ := (List.eq_nil_or_concat' m.name).resolve_left named.nonempty
      have member : last ∈ m.name := by simp [whole]
      have noMark : last ≠ '?' := by
        rintro rfl
        exact absurd (named.all _ member) (by decide)
      simp [whole, List.getLast?_append, List.getLast?_cons, noMark]
  rw [Signature.declared, shown, methodTail?_eq_none noList]
  dsimp only
  rw [propertyType_header nested, ends,
    trim_spaceBefore (trimmed_tidy _)]

/-- Rendered signatures of properties are read back: the type as it was collected, however it is
    spaced and whatever brackets, literals and separators it holds. -/
theorem extractType?_render {owner : Text} {m : MemberInfo}
    (ownerNamed : Source.IsIdentifier owner) (property : m.kind = .property)
    (named : IsName m.name) (visible : allBlank m.typeText = false)
    (noSemicolon : (trim m.typeText).getLast? ≠ some ';')
    (unfenced : ¬ Markdown.fence <:+: m.typeText) :
    extractType? (Local.fenced (Walk.render owner m)) = some
      { type := normalize (withoutQualifiers m.typeText)
        nullable := (splitTop '|' (withoutQualifiers (trim (collapse m.typeText)))).contains
          "null".toList
        optional := m.optional
        confidence := classify (normalize (withoutQualifiers m.typeText)) } := by
  have block : Markdown.codeBlock? (Local.fenced (Walk.render owner m)) =
      some (trim (Walk.render owner m)) := by
    refine codeBlock?_fenced (Walk.render_unfenced ownerNamed property named unfenced) ?_
    rw [Walk.render_property owner property]
    rfl
  have declared : Signature.declared (trim (Walk.render owner m)) =
      ⟨trim (collapse m.typeText), m.optional⟩ := by
    rw [← tidy_of_getLast? noSemicolon, ← Signature.declared_render_property ownerNamed property named, Signature.declared,
      Signature.declared, tidy_congr (sameWords_trim _)]
  have some : (trim (collapse m.typeText)).isEmpty = false := by
    have shown : trim (collapse m.typeText) ≠ [] := by
      rw [Ne, trim_eq_nil_iff, collapse, allBlank_collapseFrom, visible]
      decide
    simpa using shown
  have words : SameWords (withoutQualifiers (trim (collapse m.typeText)))
      (withoutQualifiers m.typeText) :=
    SameWords.withoutQualifiers ((sameWords_trim _).trans (sameWords_collapse _))
  rw [extractType?, block]
  dsimp only
  rw [declared]
  simp only [some, Bool.false_eq_true, ↓reduceIte, normalize_congr words]

def importedUser : MemberInfo :=
  ⟨"user".toList, .property, some "import(\"./user\").User |\n  null | undefined".toList, [], true⟩

theorem extractType?_render_importedUser :
    extractType? (Local.fenced (Walk.render "Élan".toList importedUser)) =
      some ⟨"User | null".toList, true, true, .high⟩ := by
  have owner : Source.IsIdentifier "Élan".toList := by decide +kernel
  have read := extractType?_render (m := importedUser) owner rfl (by decide +kernel)
    (by decide +kernel) (by decide +kernel) (by decide +kernel)
  exact read.trans (by decide +kernel)

end TemplateTypes
