import TemplateTypes.Proofs.Probe.Anchor
import TemplateTypes.Proofs.Probe.Component
import TemplateTypes.Proofs.Probe.Layout
import TemplateTypes.Proofs.Probe.Registry

namespace TemplateTypes

open Text Probe

/-- An offset of the content lies in the embedded image of a part of the template. -/
def Artifact.InPart (artifact : Artifact) (first last offset : Nat) : Prop :=
  artifact.templateOffset + escapedOffset artifact.template first ≤ offset ∧
    offset < artifact.templateOffset + escapedOffset artifact.template last

/-- The content is the escaped template between a header of several lines and a footer. -/
structure Artifact.Embeds (artifact : Artifact) (header footer : Text) : Prop where
  content : artifact.content = header ++ (escapeTemplate artifact.template ++ footer)
  offset : artifact.templateOffset = header.length
  severalLines : '\n' ∈ header

namespace Probe

theorem newline_mem_header (suffix : Text) (host : Option (Text × Text)) :
    '\n' ∈ header suffix host := by
  cases host with
  | none => simp [header_none]
  | some host =>
    obtain ⟨className, specifier⟩ := host
    simp [header_some]

def behindTemplate (host : Option ComponentHost) : Text :=
  footer (host.map fun h => (h.className, []))

theorem footer_of_hostPart {here artifact : Path} {host : Option ComponentHost}
    {part : Option (Text × Text)} (taken : hostPart here artifact host = .ok part) :
    footer part = behindTemplate host := by
  cases host with
  | none =>
    cases taken
    rfl
  | some h =>
    rw [hostPart] at taken
    cases found : importPath here artifact h.file with
    | error e =>
      rw [found] at taken
      cases taken
    | ok specifier =>
      rw [found] at taken
      cases taken
      rfl

theorem embeds_behindTemplate {folder : ProbeFolder} {s after : ProbeState} {template : Text}
    {host : Option ComponentHost} {artifact : Artifact}
    (made : materialize folder s template host = (.ok artifact, after))
    (plain : ∀ scratch, scratchPath folder s.files = .ok scratch → ∀ h ∈ host, ∀ specifier,
      importPath ⟨['/'], s.files.here⟩ (nextPath s scratch) h.file = .ok specifier →
        includes (hostImport h.className specifier) marker = false) :
    artifact.template = template ∧ ∃ header, artifact.Embeds header (behindTemplate host) := by
  obtain ⟨scratch, content, located, rendered, rfl⟩ := artifact_of_materialize made
  obtain ⟨written, taken, rfl⟩ := hostPart_of_render rendered
  have free : ∀ w ∈ written, includes (hostImport w.1 w.2) marker = false := by
    intro w member
    obtain ⟨h, isHost, sameClass, sameSpecifier⟩ := exists_host_of_mem taken member
    rw [← sameClass]
    exact plain scratch located h isHost w.2 sameSpecifier
  rw [← footer_of_hostPart taken]
  refine ⟨rfl, header (suffix (nextPath s scratch).name) written, ?_, ?_, ?_⟩
  · simp [source]
  · have own : includes (suffix (nextPath s scratch).name) marker = false := by
      rw [name_nextPath]
      exact suffix_fileName_free s.clock s.serial
    simp only [source, List.append_assoc, templateOffset?_header own free, Option.getD_some]
  · exact newline_mem_header _ _

theorem embeds_of_materialize {folder : ProbeFolder} {s after : ProbeState} {template : Text}
    {host : Option ComponentHost} {artifact : Artifact}
    (made : materialize folder s template host = (.ok artifact, after))
    (plain : ∀ scratch, scratchPath folder s.files = .ok scratch → ∀ h ∈ host, ∀ specifier,
      importPath ⟨['/'], s.files.here⟩ (nextPath s scratch) h.file = .ok specifier →
        includes (hostImport h.className specifier) marker = false) :
    artifact.template = template ∧ ∃ header footer, artifact.Embeds header footer := by
  obtain ⟨holds, header, embeds⟩ := embeds_behindTemplate made plain
  exact ⟨holds, header, behindTemplate host, embeds⟩

end Probe

theorem Position.ofOffset_ne_origin {t : Text} {offset : Nat} (below : '\n' ∈ t.take offset) :
    Position.ofOffset t offset ≠ .origin := by
  intro same
  have first : (t.take offset).count '\n' = 0 := congrArg Position.line same
  exact List.count_eq_zero.mp first below

section

variable {artifact : Artifact} {bindings : List Binding} {header footer : Text}

def Probe.startOf (bindings : List Binding) (i : Nat) (b : Binding) : Nat :=
  (linesBefore (bindings.take i) ++ opening b).length

theorem Probe.valueStarts_at {i : Nat} {b : Binding} (there : bindings[i]? = some b) :
    (valueStarts bindings)[i]? = some (startOf bindings i b) := by
  simp [valueStarts_getElem?, there, startOf]

theorem Probe.escapedOffset_startOf {i : Nat} {b : Binding} (there : bindings[i]? = some b) :
    escapedOffset (template bindings) (startOf bindings i b) =
      (escapeTemplate (linesBefore (bindings.take i) ++ opening b)).length := by
  rw [template_at there, startOf, escapedOffset_append]

theorem Probe.escapedOffset_endOf {i : Nat} {b : Binding} (there : bindings[i]? = some b) :
    escapedOffset (template bindings) (startOf bindings i b + b.expression.length : Nat) =
      escapedOffset (template bindings) (startOf bindings i b) +
        (escapeTemplate b.expression).length := by
  have quote : (linesBefore (bindings.take i) ++ opening b).getLast? = some doubleQuote := by
    simp [opening_getLast?]
  have length : startOf bindings i b + b.expression.length =
      (linesBefore (bindings.take i) ++ opening b ++ b.expression).length := by
    simp [startOf, Nat.add_assoc]
  rw [escapedOffset_startOf there, template_at there, length, ← List.append_assoc,
    escapedOffset_append, escapeTemplate_append, List.length_append]
  intro ⟨dollar, _⟩
  rw [quote] at dollar
  exact absurd dollar (by decide)

theorem Artifact.Embeds.drop_value (embeds : artifact.Embeds header footer)
    (holds : artifact.template = Probe.template bindings) {i : Nat} {b : Binding}
    (there : bindings[i]? = some b) :
    artifact.content.drop
        (artifact.templateOffset + escapedOffset artifact.template (startOf bindings i b)) =
      escapeTemplate b.expression ++
        (escapeTemplate (closing b ++ linesAfter (bindings.drop (i + 1))) ++ footer) := by
  rw [embeds.content, embeds.offset, holds, escapedOffset_startOf there,
    escapeTemplate_template there, List.append_assoc, List.append_assoc, ← List.append_assoc,
    ← List.length_append, List.drop_left]

theorem Artifact.Embeds.positionOf_value (embeds : artifact.Embeds header footer)
    (holds : artifact.template = Probe.template bindings) {i : Nat} {b : Binding}
    (there : bindings[i]? = some b) (nonempty : b.expression ≠ []) :
    artifact.positionOf b.expression (escapedOffset artifact.template (startOf bindings i b)) =
      .ofOffset artifact.content
        (artifact.templateOffset + escapedOffset artifact.template (startOf bindings i b) +
          hoverAnchor (escapeTemplate b.expression) : Nat) := by
  let search := escapedOffset artifact.template (startOf bindings i b)
  have rest := embeds.drop_value holds there
  have room : 0 < (escapeTemplate b.expression).length :=
    List.length_pos_iff.mpr (escapeTemplate_ne_nil nonempty)
  have bound : artifact.templateOffset + search ≤ artifact.content.length := by
    have length := congrArg List.length rest
    simp only [List.length_drop, List.length_append] at length
    omega
  have found : findFrom? (escapeTemplate b.expression) artifact.content
      (artifact.templateOffset + search) = some (artifact.templateOffset + search) := by
    apply findFrom?_of_isPrefix bound
    rw [rest]
    exact List.prefix_append _ _
  have visible : (escapeTemplate b.expression).isEmpty = false := by
    simpa using escapeTemplate_ne_nil nonempty
  simp only [Artifact.positionOf, visible, Bool.false_eq_true, ↓reduceIte, Int.toNat_natCast]
  rw [found]

theorem Artifact.Embeds.ofOffset_ne_origin (embeds : artifact.Embeds header footer)
    (offset : Nat) :
    Position.ofOffset artifact.content (artifact.templateOffset + offset : Nat) ≠ .origin := by
  apply Position.ofOffset_ne_origin
  rw [embeds.content, embeds.offset, List.take_length_add_append]
  exact List.mem_append_left _ embeds.severalLines

theorem Probe.startOf_separate {i j : Nat} (b : Binding) {c : Binding}
    (there : bindings[j]? = some c) (lt : j < i) :
    startOf bindings j c + c.expression.length + (closing c).length ≤
      startOf bindings i b - (opening b).length := by
  have next := linesBefore_length_succ there
  have later := linesBefore_length_le bindings (show j + 1 ≤ i from lt)
  simp only [line, List.length_append] at next
  simp only [startOf, List.length_append]
  omega

theorem Artifact.InPart.widen {first last offset first' last' : Nat}
    (inside : artifact.InPart first last offset) (before : first' ≤ first)
    (after : last ≤ last') : artifact.InPart first' last' offset := by
  have lower := escapedOffset_mono artifact.template before
  have upper := escapedOffset_mono artifact.template after
  unfold Artifact.InPart at inside ⊢
  omega

theorem Artifact.InPart.not_before {first last offset first' last' : Nat}
    (inside : artifact.InPart first last offset) (apart : last' ≤ first) :
    ¬ artifact.InPart first' last' offset := by
  have between := escapedOffset_mono artifact.template apart
  unfold Artifact.InPart at inside ⊢
  omega

theorem Artifact.InPart.line_iff {i j offset : Nat} {b c : Binding}
    (inside : artifact.InPart (startOf bindings i b)
      (startOf bindings i b + b.expression.length) offset)
    (there : bindings[i]? = some b) (other : bindings[j]? = some c) :
    artifact.InPart (startOf bindings j c - (opening c).length)
      (startOf bindings j c + c.expression.length + (closing c).length) offset ↔ j = i := by
  constructor
  · intro onLine
    rcases Nat.lt_trichotomy j i with earlier | same | later
    · have apart := startOf_separate b other earlier
      exact absurd onLine (inside.not_before (by omega))
    · exact same
    · have apart := startOf_separate c there later
      exact absurd inside (onLine.not_before (by omega))
  · rintro rfl
    obtain rfl : b = c := Option.some.inj (there.symm.trans other)
    exact inside.widen (by omega) (by omega)

theorem Artifact.InPart.not_in_name {i j offset : Nat} {b c : Binding}
    (inside : artifact.InPart (startOf bindings i b)
      (startOf bindings i b + b.expression.length) offset)
    (there : bindings[i]? = some b) (other : bindings[j]? = some c) :
    ¬ artifact.InPart (startOf bindings j c - (opening c).length) (startOf bindings j c)
      offset := by
  intro onName
  obtain rfl := (inside.line_iff there other).mp (onName.widen (Nat.le_refl _) (by omega))
  obtain rfl : b = c := Option.some.inj (there.symm.trans other)
  exact inside.not_before (Nat.le_refl _) onName

end

theorem escapeTemplate_head? {t : Text} (quote : t.head? = some doubleQuote) :
    (escapeTemplate t).head? = some doubleQuote := by
  obtain ⟨rest, rfl⟩ := List.head?_eq_some_iff.mp quote
  rw [escapeTemplate_cons]
  rfl

/-- A hover for a binding is asked for at the anchor of the binding's own expression, which is
    followed by the quote that closes its value. That offset is on no other binding's line and in
    no attribute name. -/
theorem hover_lands_in_own_value {folder : ProbeFolder} {s after : ProbeState}
    {host : Option ComponentHost} {artifact : Artifact} {bindings : List Binding}
    (made : materialize folder s (template bindings) host = (.ok artifact, after))
    (plain : ∀ scratch, scratchPath folder s.files = .ok scratch → ∀ h ∈ host, ∀ specifier,
      importPath ⟨['/'], s.files.here⟩ (nextPath s scratch) h.file = .ok specifier →
        includes (hostImport h.className specifier) marker = false)
    {i : Nat} {b : Binding} (there : bindings[i]? = some b) (nonempty : b.expression ≠ []) :
    ∃ start, (valueStarts bindings)[i]? = some start ∧
      let search := escapedOffset (template bindings) start
      let value := escapeTemplate b.expression
      let offset := artifact.templateOffset + search + hoverAnchor value
      artifact.positionOf b.expression search = .ofOffset artifact.content offset ∧
      Position.ofOffset artifact.content offset ≠ .origin ∧
      value ++ [doubleQuote] <+: artifact.content.drop (artifact.templateOffset + search) ∧
      hoverAnchor value < value.length ∧
      artifact.InPart start (start + b.expression.length) offset ∧
      ∀ j c first, bindings[j]? = some c → (valueStarts bindings)[j]? = some first →
        ¬ artifact.InPart (first - (opening c).length) first offset ∧
        (artifact.InPart (first - (opening c).length)
          (first + c.expression.length + (closing c).length) offset ↔ j = i) := by
  obtain ⟨holds, header, footer, embeds⟩ := embeds_of_materialize made plain
  have bound := hoverAnchor_lt (escapeTemplate_ne_nil nonempty)
  have inside : artifact.InPart (startOf bindings i b)
      (startOf bindings i b + b.expression.length)
      (artifact.templateOffset + escapedOffset artifact.template (startOf bindings i b) +
        hoverAnchor (escapeTemplate b.expression)) := by
    have ending := escapedOffset_endOf there
    unfold Artifact.InPart
    rw [holds]
    omega
  refine ⟨startOf bindings i b, valueStarts_at there, ?_⟩
  rw [← holds]
  refine ⟨embeds.positionOf_value holds there nonempty, ?_, ?_, bound, inside, ?_⟩
  · rw [Nat.add_assoc]
    exact embeds.ofOffset_ne_origin _
  · rw [embeds.drop_value holds there]
    have quote : (escapeTemplate (closing b ++ linesAfter (bindings.drop (i + 1)))).head? =
        some doubleQuote := escapeTemplate_head? (by simp [closing_head?])
    obtain ⟨rest, starts⟩ := List.head?_eq_some_iff.mp quote
    rw [starts]
    exact ⟨rest ++ footer, by simp⟩
  · intro j c first other starts
    rw [valueStarts_at other] at starts
    obtain rfl := Option.some.inj starts
    exact ⟨inside.not_in_name there other, inside.line_iff there other⟩

/-- Both expressions hold the name `a`, and so do both attribute names. -/
theorem hover_lands_in_own_value_beside_same_name :
    let bindings : List Binding :=
      [⟨['a'], ['a'], .input⟩, ⟨['b', 'a'], "\x60$\x7ba\x7d\x60".toList, .output⟩]
    ∃ (artifact : Artifact) (after : ProbeState) (start : Nat),
      materialize ⟨['t'], some ['/', 'p'], []⟩ ⟨⟨[], [], none⟩, 7, 1, []⟩ (template bindings)
        (some ⟨['A'], "/p/a.ts".toList⟩) = (.ok artifact, after) ∧
      (valueStarts bindings)[1]? = some start ∧
      artifact.positionOf "\x60$\x7ba\x7d\x60".toList (escapedOffset (template bindings) start) ≠
        .origin := by
  intro bindings
  obtain ⟨artifact, after, made⟩ : ∃ artifact after,
      materialize ⟨['t'], some ['/', 'p'], []⟩ ⟨⟨[], [], none⟩, 7, 1, []⟩ (template bindings)
        (some ⟨['A'], "/p/a.ts".toList⟩) = (.ok artifact, after) := ⟨_, _, rfl⟩
  have plain : ∀ scratch, scratchPath ⟨['t'], some ['/', 'p'], []⟩ ⟨[], [], none⟩ = .ok scratch →
      ∀ h ∈ some (⟨['A'], "/p/a.ts".toList⟩ : ComponentHost), ∀ specifier,
        importPath ⟨['/'], []⟩ (nextPath ⟨⟨[], [], none⟩, 7, 1, []⟩ scratch) h.file = .ok specifier →
          includes (hostImport h.className specifier) marker = false := by
    intro scratch located h isHost specifier found
    obtain rfl : ⟨['/'], [['p'], ['t']]⟩ = scratch := Except.ok.inj located
    obtain rfl := Option.some.inj isHost
    obtain rfl : "../a".toList = specifier := Except.ok.inj found
    decide
  obtain ⟨start, starts, position, known, _⟩ :=
    hover_lands_in_own_value made plain (i := 1) rfl (by decide)
  exact ⟨artifact, after, start, made, starts, fun unknown => known (position.symm.trans unknown)⟩

end TemplateTypes
