import TemplateTypes.Proofs.Inference.Transcript
import TemplateTypes.Proofs.Probe.EscapedAnchor
import TemplateTypes.Proofs.Probe.Lines
import TemplateTypes.Proofs.Probe.Placement

namespace TemplateTypes

open Text Probe

/-- Where the escaped text goes on with what stands from an offset of the text on. -/
def embeddedAt (t : Text) (k : Nat) : Nat := (escapeBefore (t.take k) (t.drop k).head?).length

/-- An offset of the escaped text belongs to what a character of the text became. -/
def InImage (t : Text) (k i : Nat) : Prop := embeddedAt t k ≤ i ∧ i < embeddedAt t (k + 1)

theorem escapeTemplate_embeddedAt (t : Text) (k : Nat) :
    escapeTemplate t =
      escapeBefore (t.take k) (t.drop k).head? ++ escapeTemplate (t.drop k) := by
  rw [← escapeTemplate_cut, List.take_append_drop]

theorem drop_embeddedAt (t : Text) (k : Nat) :
    (escapeTemplate t).drop (embeddedAt t k) = escapeTemplate (t.drop k) := by
  rw [escapeTemplate_embeddedAt t k, embeddedAt, List.drop_left]

theorem embeddedAt_le (t : Text) (k : Nat) : embeddedAt t k ≤ (escapeTemplate t).length := by
  rw [escapeTemplate_embeddedAt t k, List.length_append]
  exact Nat.le_add_right _ _

@[simp] theorem embeddedAt_zero (t : Text) : embeddedAt t 0 = 0 := rfl

theorem embeddedAt_cons (c : Char) (t : Text) (k : Nat) :
    embeddedAt (c :: t) (k + 1) = (escapedChar c t.head?).length + embeddedAt t k := by
  have next : (t.take k).head?.or (t.drop k).head? = t.head? := by
    rw [← List.head?_append, List.take_append_drop]
  rw [embeddedAt, List.take_succ_cons, List.drop_succ_cons, escapeBefore, next,
    List.length_append, embeddedAt]

theorem length_le_escapeBefore (t : Text) (behind : Option Char) :
    t.length ≤ (escapeBefore t behind).length := by
  induction t with
  | nil => exact Nat.le_refl _
  | cons c t ih =>
    have room := escapedChar_length_pos c (t.head?.or behind)
    rw [escapeBefore, List.length_append, List.length_cons]
    omega

theorem le_embeddedAt {t : Text} {k : Nat} (within : k ≤ t.length) : k ≤ embeddedAt t k := by
  have room := length_le_escapeBefore (t.take k) (t.drop k).head?
  rwa [List.length_take_of_le within] at room

theorem embeddedAt_lt {t : Text} {j k : Nat} (less : j < k) (within : k ≤ t.length) :
    embeddedAt t j < embeddedAt t k := by
  induction t generalizing j k with
  | nil => exact absurd within (by simp; omega)
  | cons c t ih =>
    obtain ⟨k, rfl⟩ := Nat.exists_eq_succ_of_ne_zero (Nat.ne_zero_of_lt less)
    have room := escapedChar_length_pos c t.head?
    rw [Nat.succ_eq_add_one, embeddedAt_cons]
    cases j with
    | zero =>
      rw [embeddedAt_zero]
      omega
    | succ j =>
      have later := ih (Nat.lt_of_succ_lt_succ less) (Nat.le_of_succ_le_succ within)
      rw [embeddedAt_cons]
      omega

def NeverEscaped (e : Text) : Prop := escapeBefore e (some '\x7b') = e

instance (e : Text) : Decidable (NeverEscaped e) := inferInstanceAs (Decidable (_ = _))

theorem neverEscaped_cons {c : Char} {e : Text} :
    NeverEscaped (c :: e) ↔
      isEscapedBefore c (e.head?.or (some '\x7b')) = false ∧ NeverEscaped e := by
  unfold NeverEscaped
  rw [escapeBefore, escapedChar]
  cases isEscapedBefore c (e.head?.or (some '\x7b')) with
  | false => simp
  | true =>
    -- With a backslash put in, the text grows.
    have room := length_le_escapeBefore e (some '\x7b')
    refine iff_of_false (fun same => ?_) (by simp)
    have length := congrArg List.length same
    simp only [↓reduceIte, List.length_append, List.length_cons, List.length_nil] at length
    omega

theorem isEscapedBefore_brace {c : Char} {next : Option Char}
    (escaped : isEscapedBefore c next = true) : isEscapedBefore c (some '\x7b') = true := by
  unfold isEscapedBefore at escaped ⊢
  simp only [Bool.or_eq_true, Bool.and_eq_true] at escaped ⊢
  exact escaped.imp_right fun dollar => ⟨dollar.1, by decide⟩

section

variable {e t : Text}

theorem NeverEscaped.backtick_notMem (plain : NeverEscaped e) : backtick ∉ e := by
  induction e with
  | nil => exact List.not_mem_nil
  | cons c e ih =>
    obtain ⟨unescaped, rest⟩ := neverEscaped_cons.mp plain
    refine List.not_mem_cons_of_ne_of_not_mem ?_ (ih rest)
    rintro rfl
    simp [isEscapedBefore] at unescaped

theorem NeverEscaped.unescaped {c : Char} (plain : NeverEscaped (c :: e)) (here : e <+: t) :
    isEscapedBefore c t.head? = false := by
  have unescaped := (neverEscaped_cons.mp plain).1
  rw [Bool.eq_false_iff] at unescaped ⊢
  intro escaped
  apply unescaped
  cases e with
  | nil => exact isEscapedBefore_brace escaped
  | cons d e =>
    obtain ⟨rest, rfl⟩ := here
    exact escaped

theorem NeverEscaped.isPrefix_iff (plain : NeverEscaped e) :
    e <+: escapeTemplate t ↔ e <+: t := by
  induction e generalizing t with
  | nil => simp
  | cons c e ih =>
    obtain ⟨own, rest⟩ := neverEscaped_cons.mp plain
    cases t with
    | nil => simp [escapeTemplate]
    | cons d t =>
      rw [escapeTemplate_cons, escapedChar]
      cases escaped : isEscapedBefore d t.head? with
      | false => simp [List.cons_prefix_cons, ih rest]
      | true =>
        refine iff_of_false (fun there => ?_) fun here => ?_
        · obtain rfl := (List.cons_prefix_cons.mp there).1
          simp [isEscapedBefore] at own
        · obtain ⟨rfl, behind⟩ := List.cons_prefix_cons.mp here
          rw [plain.unescaped behind] at escaped
          cases escaped

theorem NeverEscaped.isPrefix_drop_iff (plain : NeverEscaped e) (nonempty : e ≠ []) {i : Nat} :
    e <+: (escapeTemplate t).drop i ↔ ∃ k, i = embeddedAt t k ∧ e <+: t.drop k := by
  constructor
  · intro there
    induction t generalizing i with
    | nil => exact absurd (lt_length_of_isPrefix_drop nonempty there) (by simp [escapeTemplate])
    | cons c t ih =>
      rcases Nat.eq_zero_or_pos i with rfl | positive
      · exact ⟨0, rfl, plain.isPrefix_iff.mp there⟩
      rw [escapeTemplate_cons] at there
      rcases Nat.lt_or_ge i (escapedChar c t.head?).length with inside | behind
      · -- Behind a backslash put in stands a character that the expression does not have.
        exfalso
        rw [escapedChar] at there inside
        cases escaped : isEscapedBefore c t.head? with
        | false =>
          rw [escaped] at inside
          simp at inside
          omega
        | true =>
          rw [escaped] at there inside
          obtain rfl : i = 1 := by simp at inside; omega
          obtain ⟨d, e, rfl⟩ := List.exists_cons_of_ne_nil nonempty
          obtain ⟨rfl, rest⟩ := List.cons_prefix_cons.mp there
          have own := (neverEscaped_cons.mp plain).2
          rw [plain.unescaped (own.isPrefix_iff.mp rest)] at escaped
          cases escaped
      · rw [List.drop_append, List.drop_of_length_le behind, List.nil_append] at there
        obtain ⟨k, place, here⟩ := ih there
        refine ⟨k + 1, ?_, here⟩
        rw [embeddedAt_cons]
        omega
  · rintro ⟨k, rfl, here⟩
    rw [drop_embeddedAt]
    exact plain.isPrefix_iff.mpr here

theorem NeverEscaped.isInfix_drop (plain : NeverEscaped e) (nonempty : e ≠ []) {offset : Nat}
    (there : e <:+: t.drop offset) : e <:+: (escapeTemplate t).drop offset := by
  obtain ⟨k, begun, here⟩ := isInfix_drop_iff.mp there
  have within := lt_length_of_isPrefix_drop nonempty here
  have later := le_embeddedAt (Nat.le_of_lt within)
  exact isInfix_drop_iff.mpr
    ⟨_, begun.trans later, (plain.isPrefix_drop_iff nonempty).mpr ⟨k, rfl, here⟩⟩

end

/-- A position given for an expression is that of the anchor of an occurrence of the escaped
    expression in the embedded template, at or after the offset. -/
def Artifact.PlacesInside (artifact : Artifact) (expression : Text) (offset : Nat) : Prop :=
  artifact.positionOf expression offset ≠ .origin →
    ∃ i, offset ≤ i ∧ escapeTemplate expression <+: (escapeTemplate artifact.template).drop i ∧
      artifact.positionOf expression offset =
        .ofOffset artifact.content
          (artifact.templateOffset + i + hoverAnchor (escapeTemplate expression) : Nat)

def QueryClient.questionsFor {σ : Type} (client : QueryClient) (oracle : Oracle σ) (s : σ)
    (files : FileTree) (artifact : Artifact) (expression : Text) (offset : Nat)
    (timeoutMs : Option Int) : List Question :=
  (client.queryFor oracle.recording (s, []) files artifact expression offset
    timeoutMs).oracle.2.map (·.question)

/-- Something is asked just where the expression occurs in the template at or after the offset,
    and what is asked is asked where such an occurrence begins in the source. -/
structure Artifact.AsksInside (artifact : Artifact) (expression : Text) (offset : Nat)
    (questions : List Question) : Prop where
  asks : questions ≠ [] ↔ expression ≠ [] ∧ expression <:+: artifact.template.drop offset
  places : ∀ q ∈ questions, ∃ k i, offset ≤ k ∧ expression <+: artifact.template.drop k ∧
    InImage artifact.template k i ∧
      q = ⟨artifact.uri, .ofOffset artifact.content (artifact.templateOffset + i : Nat)⟩

/-- The first occurrence of the expression in the source is one that the template has, and there is
    one in the source when the template has one. -/
structure MeetsTemplate (template behind expression : Text) (offset : Nat) : Prop where
  found : expression <:+: template.drop offset →
    expression <:+: (escapeTemplate template ++ behind).drop offset
  own : ∀ i, FirstFrom expression (escapeTemplate template ++ behind) offset i →
    ∃ k, offset ≤ k ∧ expression <+: template.drop k ∧ InImage template k i

section

variable {artifact : Artifact} {header footer : Text}

theorem Artifact.Embeds.drop_content (embeds : artifact.Embeds header footer) :
    artifact.content.drop artifact.templateOffset =
      escapeTemplate artifact.template ++ footer := by
  rw [embeds.content, embeds.offset, List.drop_left]

theorem Artifact.Embeds.findFrom? (embeds : artifact.Embeds header footer) (needle : Text)
    (offset : Nat) :
    Text.findFrom? needle artifact.content (artifact.templateOffset + offset) =
      (Text.findFrom? needle (escapeTemplate artifact.template ++ footer) offset).map
        (artifact.templateOffset + ·) := by
  rw [embeds.content, embeds.offset, findFrom?_append_left]

theorem Artifact.Embeds.length_content (embeds : artifact.Embeds header footer) :
    artifact.content.length =
      artifact.templateOffset + (escapeTemplate artifact.template ++ footer).length := by
  rw [embeds.content, embeds.offset, List.length_append]

section

variable {expression : Text} {offset : Nat}

theorem Artifact.Embeds.positionOf_eq (embeds : artifact.Embeds header footer)
    (nonempty : expression ≠ []) :
    artifact.positionOf expression offset =
      ((Text.findFrom? (escapeTemplate expression) (escapeTemplate artifact.template ++ footer)
        offset).map fun i => Position.ofOffset artifact.content
          (artifact.templateOffset + i + hoverAnchor (escapeTemplate expression) : Nat)).getD
        .origin := by
  have visible : (escapeTemplate expression).isEmpty = false := by
    simpa using escapeTemplate_ne_nil nonempty
  simp only [Artifact.positionOf, visible, Bool.false_eq_true, ↓reduceIte, Int.toNat_natCast]
  rw [embeds.findFrom?]
  cases Text.findFrom? (escapeTemplate expression) (escapeTemplate artifact.template ++ footer)
    offset <;> rfl

theorem Artifact.Embeds.positionOf_of_first (embeds : artifact.Embeds header footer)
    (nonempty : expression ≠ []) {i : Nat}
    (first : FirstFrom (escapeTemplate expression) (escapeTemplate artifact.template ++ footer)
      offset i) :
    artifact.positionOf expression offset = .ofOffset artifact.content
      (artifact.templateOffset + i + hoverAnchor (escapeTemplate expression) : Nat) := by
  have found := (findFrom?_eq_some_iff (escapeTemplate_ne_nil nonempty)).mpr first
  rw [embeds.positionOf_eq nonempty, found]
  rfl

theorem Artifact.Embeds.positionOf_of_absent (embeds : artifact.Embeds header footer)
    (absent : ¬ escapeTemplate expression <:+:
      (escapeTemplate artifact.template ++ footer).drop offset) :
    artifact.positionOf expression offset = .origin := by
  by_cases empty : expression = []
  · rw [empty]
    rfl
  · have missing := (findFrom?_eq_none_iff (escapeTemplate_ne_nil empty)).mpr absent
    rw [embeds.positionOf_eq empty, missing]
    rfl

theorem Artifact.Embeds.placesInside_iff (embeds : artifact.Embeds header footer) :
    artifact.PlacesInside expression offset ↔
      (expression ≠ [] →
        escapeTemplate expression <:+: (escapeTemplate artifact.template ++ footer).drop offset →
          escapeTemplate expression <:+: (escapeTemplate artifact.template).drop offset) := by
  constructor
  · intro inside nonempty there
    obtain ⟨i, first⟩ := exists_firstFrom_iff.mpr there
    have known : artifact.positionOf expression offset ≠ .origin := by
      rw [embeds.positionOf_of_first nonempty first, Nat.add_assoc]
      exact embeds.ofOffset_ne_origin _
    obtain ⟨j, begun, here, _⟩ := inside known
    exact isInfix_drop_iff.mpr ⟨j, begun, here⟩
  · intro kept known
    have nonempty : expression ≠ [] := by
      rintro rfl
      exact known rfl
    have there : escapeTemplate expression <:+:
        (escapeTemplate artifact.template ++ footer).drop offset := by
      by_contra absent
      exact known (embeds.positionOf_of_absent absent)
    obtain ⟨i, first⟩ := exists_firstFrom_iff.mpr there
    obtain ⟨begun, here, _⟩ :=
      first.of_append (escapeTemplate_ne_nil nonempty) (kept nonempty there)
    exact ⟨i, begun, here, embeds.positionOf_of_first nonempty first⟩

theorem Artifact.Embeds.exists_placed (embeds : artifact.Embeds header footer)
    (nonempty : expression ≠ [])
    (there : escapeTemplate expression <:+: (escapeTemplate artifact.template).drop offset) :
    ∃ i, FirstFrom (escapeTemplate expression) (escapeTemplate artifact.template) offset i ∧
      artifact.positionOf expression offset = .ofOffset artifact.content
        (artifact.templateOffset + i + hoverAnchor (escapeTemplate expression) : Nat) := by
  have filled := escapeTemplate_ne_nil nonempty
  obtain ⟨j, begun, inside⟩ := isInfix_drop_iff.mp there
  obtain ⟨i, _, first⟩ := exists_firstFrom begun (isPrefix_drop_append filled inside footer)
  exact ⟨i, first.of_append filled there, embeds.positionOf_of_first nonempty first⟩

end

theorem Artifact.asksInside_nil {σ : Type} {client : QueryClient} {oracle : Oracle σ} {s : σ}
    {files : FileTree} {artifact : Artifact} {offset : Nat} {timeoutMs : Option Int} :
    artifact.AsksInside [] offset
      (client.questionsFor oracle s files artifact [] offset timeoutMs) :=
  ⟨iff_of_false (fun asked => asked rfl) fun filled => filled.1 rfl, fun _ asked => nomatch asked⟩

section

variable {expression : Text} {offset : Nat} {σ : Type} {client : QueryClient} {oracle : Oracle σ}
variable {s : σ} {files : FileTree} {timeoutMs : Option Int}

theorem Artifact.Embeds.questionsFor_eq (embeds : artifact.Embeds header footer)
    (nonempty : expression ≠ []) :
    client.questionsFor oracle s files artifact expression offset timeoutMs =
      ((Text.findFrom? expression (escapeTemplate artifact.template ++ footer) offset).map
        fun i => Question.mk artifact.uri
          (.ofOffset artifact.content (artifact.templateOffset + i : Nat))).toList := by
  have visible : expression.isEmpty = false := by simpa using nonempty
  simp only [QueryClient.questionsFor, QueryClient.queryFor, visible, Bool.false_eq_true,
    ↓reduceIte, Int.toNat_natCast]
  rw [embeds.findFrom?]
  cases Text.findFrom? expression (escapeTemplate artifact.template ++ footer) offset <;> rfl

theorem Artifact.Embeds.questionsFor_of_first (embeds : artifact.Embeds header footer)
    (nonempty : expression ≠ []) {i : Nat}
    (first : FirstFrom expression (escapeTemplate artifact.template ++ footer) offset i) :
    client.questionsFor oracle s files artifact expression offset timeoutMs =
      [⟨artifact.uri, .ofOffset artifact.content (artifact.templateOffset + i : Nat)⟩] := by
  rw [embeds.questionsFor_eq nonempty, (findFrom?_eq_some_iff nonempty).mpr first]
  rfl

theorem Artifact.Embeds.questionsFor_of_absent (embeds : artifact.Embeds header footer)
    (absent : ¬ expression <:+: (escapeTemplate artifact.template ++ footer).drop offset) :
    client.questionsFor oracle s files artifact expression offset timeoutMs = [] := by
  by_cases empty : expression = []
  · rw [empty]
    rfl
  · rw [embeds.questionsFor_eq empty, (findFrom?_eq_none_iff empty).mpr absent]
    rfl

theorem Artifact.Embeds.asksInside_iff (embeds : artifact.Embeds header footer)
    (nonempty : expression ≠ []) :
    artifact.AsksInside expression offset
        (client.questionsFor oracle s files artifact expression offset timeoutMs) ↔
      MeetsTemplate artifact.template footer expression offset := by
  constructor
  · rintro ⟨asks, places⟩
    refine ⟨fun there => ?_, fun i first => ?_⟩
    · by_contra absent
      exact asks.mpr ⟨nonempty, there⟩ (embeds.questionsFor_of_absent absent)
    · rw [embeds.questionsFor_of_first nonempty first] at places
      obtain ⟨k, j, begun, here, image, same⟩ := places _ (List.mem_singleton_self _)
      have room := lt_length_of_isPrefix_drop nonempty first.2.1
      have bound := embeddedAt_le artifact.template (k + 1)
      have whole := embeds.length_content
      rw [List.length_append] at room whole
      have equal := (Position.ofOffset_inj (by omega) (by have := image.2; omega)).mp
        (congrArg Question.position same)
      obtain rfl : i = j := by omega
      exact ⟨k, begun, here, image⟩
  · rintro ⟨found, own⟩
    by_cases there : expression <:+: (escapeTemplate artifact.template ++ footer).drop offset
    · obtain ⟨i, first⟩ := exists_firstFrom_iff.mpr there
      rw [embeds.questionsFor_of_first nonempty first]
      obtain ⟨k, begun, here, image⟩ := own i first
      refine ⟨iff_of_true (by simp) ⟨nonempty, isInfix_drop_iff.mpr ⟨k, begun, here⟩⟩, ?_⟩
      intro q asked
      exact ⟨k, i, begun, here, image, List.mem_singleton.mp asked⟩
    · rw [embeds.questionsFor_of_absent there]
      exact ⟨iff_of_false (by simp) fun ⟨_, inside⟩ => there (found inside), by simp⟩

end

end

theorem Probe.behindTemplate_eq (host : Option ComponentHost) :
    ∃ rest, behindTemplate host = backtick :: rest := by
  cases host <;> exact ⟨_, rfl⟩

/-- The backtick that ends the template is no part of the expression, so the expression stands in
    the template or behind it. -/
theorem NeverEscaped.meetsTemplate_iff {template expression : Text} {offset : Nat}
    (plain : NeverEscaped expression) (nonempty : expression ≠ []) (rest : Text) :
    MeetsTemplate template (backtick :: rest) expression offset ↔
      (∀ k, expression <+: template.drop k → offset ≤ embeddedAt template k → offset ≤ k) ∧
        (expression <:+: (backtick :: rest).drop (offset - (escapeTemplate template).length) →
          expression <:+: template.drop offset) := by
  have parts := isInfix_drop_append_separator plain.backtick_notMem (escapeTemplate template) rest
    offset
  constructor
  · rintro ⟨_, own⟩
    refine ⟨fun k here begun => ?_, fun there => ?_⟩
    · have image := (plain.isPrefix_drop_iff nonempty).mpr ⟨k, rfl, here⟩
      obtain ⟨i, before, first⟩ :=
        exists_firstFrom begun (isPrefix_drop_append nonempty image (backtick :: rest))
      obtain ⟨j, later, here', inside, _⟩ := own i first
      -- The first occurrence is that of `j`, so the one of `k` does not come before it.
      have within := lt_length_of_isPrefix_drop nonempty here'
      have order : j ≤ k := Nat.le_of_not_lt fun less => by
        have := embeddedAt_lt less (Nat.le_of_lt within)
        omega
      exact later.trans order
    · obtain ⟨i, first⟩ := exists_firstFrom_iff.mpr (parts.mpr (.inr there))
      obtain ⟨k, begun, here, _⟩ := own i first
      exact isInfix_drop_iff.mpr ⟨k, begun, here⟩
  · rintro ⟨order, kept⟩
    refine ⟨fun there => parts.mpr (.inl (plain.isInfix_drop nonempty there)), fun i first => ?_⟩
    have inside : expression <:+: (escapeTemplate template).drop offset := by
      rcases parts.mp (exists_firstFrom_iff.mp ⟨i, first⟩) with front | behind
      · exact front
      · exact plain.isInfix_drop nonempty (kept behind)
    obtain ⟨begun, here, _⟩ := first.of_append nonempty inside
    obtain ⟨k, rfl, stands⟩ := (plain.isPrefix_drop_iff nonempty).mp here
    have within := lt_length_of_isPrefix_drop nonempty stands
    exact ⟨k, order k stands begun, stands, Nat.le_refl _, embeddedAt_lt (Nat.lt_succ_self k) within⟩

/-- The search for a position stays in the embedded template just where the escaped expression, if it
    occurs from the offset on at all, occurs in the embedded template; there its first occurrence is
    taken. A query asks where the expression occurs in the template just where the first occurrence
    of the expression in the source is one of the template's. For an expression that escaping leaves
    alone these are the cases in which the characters put in move no occurrence from before the
    offset to it or behind it, and the expression does not occur behind the template only. -/
theorem searches_inside_iff {folder : ProbeFolder} {s after : ProbeState} {template : Text}
    {host : Option ComponentHost} {artifact : Artifact}
    (made : materialize folder s template host = (.ok artifact, after))
    (plain : ∀ scratch, scratchPath folder s.files = .ok scratch → ∀ h ∈ host, ∀ specifier,
      importPath ⟨['/'], s.files.here⟩ (nextPath s scratch) h.file = .ok specifier →
        includes (hostImport h.className specifier) marker = false)
    {σ : Type} (client : QueryClient) (oracle : Oracle σ) (state : σ) (files : FileTree)
    (expression : Text) (offset : Nat) (timeoutMs : Option Int) :
    let embedded := escapeTemplate template
    let behind := behindTemplate host
    let escaped := escapeTemplate expression
    let questions := client.questionsFor oracle state files artifact expression offset timeoutMs
    artifact.template = template ∧
      artifact.content.drop artifact.templateOffset = embedded ++ behind ∧
      (artifact.PlacesInside expression offset ↔
        (expression ≠ [] → escaped <:+: (embedded ++ behind).drop offset →
          escaped <:+: embedded.drop offset)) ∧
      (expression ≠ [] → escaped <:+: embedded.drop offset →
        ∃ i, FirstFrom escaped embedded offset i ∧
          artifact.positionOf expression offset = .ofOffset artifact.content
            (artifact.templateOffset + i + hoverAnchor escaped : Nat)) ∧
      (artifact.AsksInside expression offset questions ↔
        (expression ≠ [] → MeetsTemplate template behind expression offset)) ∧
      (NeverEscaped expression → expression ≠ [] →
        (artifact.AsksInside expression offset questions ↔
          (∀ k, expression <+: template.drop k → offset ≤ embeddedAt template k → offset ≤ k) ∧
            (expression <:+: behind.drop (offset - embedded.length) →
              expression <:+: template.drop offset))) := by
  obtain ⟨holds, header, embeds⟩ := embeds_behindTemplate made plain
  subst holds
  refine ⟨rfl, embeds.drop_content, embeds.placesInside_iff, embeds.exists_placed, ?_, ?_⟩
  · by_cases nonempty : expression = []
    · subst nonempty
      exact iff_of_true Artifact.asksInside_nil fun filled => absurd rfl filled
    · rw [embeds.asksInside_iff nonempty]
      exact ⟨fun meets _ => meets, fun meets => meets nonempty⟩
  · intro unescaped nonempty
    obtain ⟨rest, starts⟩ := behindTemplate_eq host
    rw [embeds.asksInside_iff nonempty, starts]
    exact unescaped.meetsTemplate_iff nonempty rest

/-- The name is searched for behind a backtick that is escaped. The class behind the template has the
    word in its name. -/
theorem searches_inside_iff_name :
    let template := "\x60\x7b\x7b user.name \x7d\x7d".toList
    let client : QueryClient := ⟨100, []⟩
    let oracle := Oracle.replying ⟨none, .ok none⟩
    let files : FileTree := ⟨[], [], none⟩
    ∃ (artifact : Artifact) (after : ProbeState),
      materialize ⟨['t'], some ['/', 'p'], []⟩ ⟨⟨[], [], none⟩, 7, 1, []⟩ template
        (some ⟨['A'], "/p/a.ts".toList⟩) = (.ok artifact, after) ∧
      artifact.PlacesInside "name".toList 0 ∧
      artifact.AsksInside "name".toList 0
        (client.questionsFor oracle () files artifact "name".toList 0 none) ∧
      ¬ artifact.PlacesInside "Component".toList 0 ∧
      ¬ artifact.AsksInside "Component".toList 0
        (client.questionsFor oracle () files artifact "Component".toList 0 none) := by
  intro template client oracle files
  obtain ⟨artifact, after, made⟩ : ∃ artifact after,
      materialize ⟨['t'], some ['/', 'p'], []⟩ ⟨⟨[], [], none⟩, 7, 1, []⟩ template
        (some ⟨['A'], "/p/a.ts".toList⟩) = (.ok artifact, after) := ⟨_, _, rfl⟩
  have plain : ∀ scratch, scratchPath ⟨['t'], some ['/', 'p'], []⟩ ⟨[], [], none⟩ = .ok scratch →
      ∀ h ∈ some (⟨['A'], "/p/a.ts".toList⟩ : ComponentHost), ∀ specifier,
        importPath ⟨['/'], []⟩ (nextPath ⟨⟨[], [], none⟩, 7, 1, []⟩ scratch) h.file = .ok specifier →
          includes (hostImport h.className specifier) marker = false := by
    intro scratch located h isHost specifier found
    obtain rfl : ⟨['/'], [['p'], ['t']]⟩ = scratch := Except.ok.inj located
    obtain rfl := Option.some.inj isHost
    obtain rfl : "../a".toList = specifier := Except.ok.inj found
    decide
  obtain ⟨_, _, placed, _, _, asked⟩ :=
    searches_inside_iff made plain client oracle () files "name".toList 0 none
  obtain ⟨_, _, misplaced, _, _, misasked⟩ :=
    searches_inside_iff made plain client oracle () files "Component".toList 0 none
  refine ⟨artifact, after, made, placed.mpr fun _ _ => by decide, ?_, fun inside => ?_,
    fun inside => ?_⟩
  · exact (asked (by decide) (by decide)).mpr ⟨fun k _ _ => Nat.zero_le k, fun _ => by decide⟩
  · exact absurd (misplaced.mp inside (by decide) (by decide)) (by decide)
  · have kept := ((misasked (by decide) (by decide)).mp inside).2
    exact absurd (kept (by decide)) (by decide)

/-- The name of the class behind the template is taken for an occurrence in it, and an expression that
    the template holds is not found when its characters are escaped there. -/
theorem searches_leave_template :
    let template := "<p>$\x7ba\x7d</p>".toList
    let client : QueryClient := ⟨100, []⟩
    let oracle := Oracle.replying ⟨none, .ok none⟩
    let files : FileTree := ⟨[], [], none⟩
    ∃ (artifact : Artifact) (after : ProbeState),
      materialize ⟨['t'], some ['/', 'p'], []⟩ ⟨⟨[], [], none⟩, 7, 1, []⟩ template none =
        (.ok artifact, after) ∧
      ¬ artifact.PlacesInside "Component".toList 0 ∧
      ¬ artifact.AsksInside "Component".toList 0
        (client.questionsFor oracle () files artifact "Component".toList 0 none) ∧
      "<p>$\x7ba\x7d".toList <+: artifact.template ∧
      client.questionsFor oracle () files artifact "<p>$\x7ba\x7d".toList 0 none = [] := by
  intro template client oracle files
  obtain ⟨artifact, after, made⟩ : ∃ artifact after,
      materialize ⟨['t'], some ['/', 'p'], []⟩ ⟨⟨[], [], none⟩, 7, 1, []⟩ template none =
        (.ok artifact, after) := ⟨_, _, rfl⟩
  obtain ⟨holds, header, embeds⟩ := embeds_behindTemplate made (fun _ _ _ none => nomatch none)
  refine ⟨artifact, after, made, fun inside => ?_, fun inside => ?_, ?_, ?_⟩
  · have kept := embeds.placesInside_iff.mp inside (by decide)
    rw [holds] at kept
    exact absurd (kept (by decide)) (by decide)
  · have asks := inside.asks
    rw [holds] at asks
    have word : "Component".toList <:+: (escapeTemplate artifact.template ++
        behindTemplate none).drop 0 := by
      rw [holds]
      decide
    obtain ⟨i, first⟩ := exists_firstFrom_iff.mpr word
    rw [embeds.questionsFor_of_first (by decide) first] at asks
    exact absurd (asks.mp (by simp)).2 (by decide)
  · rw [holds]
    decide
  · apply embeds.questionsFor_of_absent
    rw [holds]
    decide

end TemplateTypes
