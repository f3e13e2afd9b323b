import TemplateTypes.Proofs.Files.Relative
import TemplateTypes.Proofs.Probe.Readback

namespace TemplateTypes

open Text

namespace Probe

/-- The file's name without its ending is the name that it is imported under, unless that is shorter
    by one more ending. -/
theorem moduleName_eq_iff {file stem ending : Text}
    (endings : ending = ".ts".toList ∨ ending = ".tsx".toList)
    (named : (Path.ofText file).name = stem ++ ending) :
    moduleName file = stem ↔ ¬ (ending = ".ts".toList ∧ endsWith stem ".tsx".toList = true) := by
  rw [moduleName, named]
  rcases endings with rfl | rfl
  · rw [dropEnding_append]
    cases twice : endsWith stem ".tsx".toList with
    | false =>
      rw [dropEnding_of_not twice]
      simp
    | true =>
      obtain ⟨front, rfl⟩ := endsWith_iff.mp twice
      simp [dropEnding_append]
  · have other : endsWith (stem ++ ".tsx".toList) ".ts".toList = false := by
      simp [endsWith, List.isPrefixOf]
    rw [dropEnding_of_not other, dropEnding_append]
    simp

structure IsEnding (ending : Text) : Prop where
  nonempty : ending ≠ []
  free : '/' ∉ ending
  notDot : ∀ t, t ++ ending ≠ ['.']

theorem isEnding_of {ending : Text} (endings : ending = ".ts".toList ∨ ending = ".tsx".toList) :
    IsEnding ending := by
  rcases endings with rfl | rfl
  · exact ⟨by decide, by decide, fun t same => by simpa using congrArg List.length same⟩
  · exact ⟨by decide, by decide, fun t same => by simpa using congrArg List.length same⟩

def specifierOf (way : List Text) : Text :=
  if startsWith (Path.toText ⟨[], way⟩) ['.'] then Path.toText ⟨[], way⟩
  else "./".toList ++ Path.toText ⟨[], way⟩

def ShowsRelative (specifier : Text) : Prop :=
  startsWith specifier "./".toList = true ∨ startsWith specifier "../".toList = true

theorem showsRelative_dotted {c : Char} {step tail : Text} (free : '/' ∉ '.' :: c :: step) :
    ShowsRelative ('.' :: c :: (step ++ tail)) ↔
      '.' :: c :: step = Path.up ∧ startsWith tail ['/'] = true := by
  have first : '/' ≠ c := by
    rintro rfl
    simp at free
  cases step with
  | nil =>
    by_cases up : c = '.'
    · cases tail <;> simp [ShowsRelative, startsWith, List.isPrefixOf, Path.up, up]
    · simp [ShowsRelative, startsWith, List.isPrefixOf, Path.up, up, first, Ne.symm up]
  | cons d step =>
    have second : '/' ≠ d := by
      rintro rfl
      simp at free
    simp [ShowsRelative, startsWith, List.isPrefixOf, Path.up, first, second]

theorem showsRelative_specifierOf_iff {way : List Text} (proper : Path.Proper ⟨[], way⟩) :
    ShowsRelative (specifierOf way) ↔ ∃ step rest, way = step :: rest ∧
      (startsWith step ['.'] = false ∨ step = Path.up ∧ rest ≠ []) := by
  cases way with
  | nil =>
    have dot : specifierOf [] = ['.'] := by decide
    simp [dot, ShowsRelative, startsWith, List.isPrefixOf]
  | cons step rest =>
    obtain ⟨free, nonempty, notDot⟩ := proper.steps step List.mem_cons_self
    have written : Path.toText ⟨[], step :: rest⟩ = step ++ rest.flatMap (fun t => '/' :: t) := by
      simp [Path.toText, join_cons]
    have whole : (∃ first more, step :: rest = first :: more ∧
        (startsWith first ['.'] = false ∨ first = Path.up ∧ more ≠ [])) ↔
        (startsWith step ['.'] = false ∨ step = Path.up ∧ rest ≠ []) := by
      constructor
      · rintro ⟨_, _, ⟨⟩, shown⟩
        exact shown
      · exact fun shown => ⟨step, rest, rfl, shown⟩
    have goesOn : startsWith (rest.flatMap (fun t => '/' :: t)) ['/'] = true ↔ rest ≠ [] := by
      cases rest <;> simp [startsWith, List.isPrefixOf]
    rw [whole, specifierOf, written]
    obtain ⟨c, step, rfl⟩ := List.exists_cons_of_ne_nil nonempty
    by_cases dotted : c = '.'
    · obtain rfl := dotted
      obtain ⟨d, step, rfl⟩ := List.exists_cons_of_ne_nil (l := step) (by simpa using notDot)
      have begins : ∀ t, startsWith ('.' :: t) ['.'] = true := by
        simp [startsWith, List.isPrefixOf]
      simp only [List.cons_append, begins, ↓reduceIte, Bool.true_eq_false, false_or]
      rw [showsRelative_dotted free, goesOn]
    · have plain : ∀ t, startsWith (c :: t) ['.'] = false := by
        simp [startsWith, List.isPrefixOf, Ne.symm dotted]
      simp only [List.cons_append, plain, Bool.false_eq_true, ↓reduceIte, true_or, iff_true]
      exact .inl (by simp [startsWith, List.isPrefixOf])

/-- How a module stands to a directory that the way to it begins with a step that shows where it
    goes: down into a file or directory that is not hidden, or up and on from there. -/
structure PlainWay (start module : List Text) : Prop where
  below : ∀ rest, module = start ++ rest →
    ∃ step more, rest = step :: more ∧ startsWith step ['.'] = false
  above : ∀ step, start ≠ module ++ [step]

theorem plainWay_iff {start module : List Text} (onward : Path.up ∉ module) :
    (∃ step rest, Path.wayTo start module = step :: rest ∧
      (startsWith step ['.'] = false ∨ step = Path.up ∧ rest ≠ [])) ↔ PlainWay start module := by
  obtain ⟨common, startParts, moduleParts, differ⟩ := Path.exists_common start module
  rw [Path.wayTo]
  generalize Path.dropCommon start module = cut at *
  obtain ⟨climb, descend⟩ := cut
  dsimp only at *
  subst startParts moduleParts
  cases climb with
  | nil =>
    rw [List.map_nil, List.nil_append, List.append_nil]
    constructor
    · rintro ⟨step, rest, rfl, shown⟩
      refine ⟨fun below same => ⟨step, rest, (List.append_cancel_left same).symm, ?_⟩, ?_⟩
      · refine shown.resolve_right fun climbs => onward ?_
        simp [climbs.1]
      · intro last same
        have length := congrArg List.length same
        simp at length
    · rintro ⟨below, -⟩
      obtain ⟨step, more, rfl, plain⟩ := below descend rfl
      exact ⟨step, more, rfl, .inl plain⟩
  | cons first climb =>
    rw [List.map_cons, List.cons_append]
    constructor
    · rintro ⟨_, _, ⟨⟩, hidden | ⟨_, further⟩⟩
      · exact absurd hidden (by decide)
      · refine ⟨fun below same => ?_, fun last same => ?_⟩
        · rw [List.append_assoc] at same
          exact absurd rfl (differ first climb first (climb ++ below)
            (by rw [List.append_cancel_left same]; rfl))
        · rw [List.append_assoc] at same
          have parts := List.append_cancel_left same
          cases descend with
          | nil =>
            obtain ⟨_, rfl⟩ := List.cons.inj parts
            exact further rfl
          | cons second descend =>
            exact absurd (List.cons.inj parts).1 (differ first climb second descend rfl)
    · rintro ⟨-, above⟩
      refine ⟨_, _, rfl, .inr ⟨rfl, fun ends => ?_⟩⟩
      obtain ⟨noClimb, rfl⟩ := List.append_eq_nil_iff.mp ends
      obtain rfl := List.map_eq_nil_iff.mp noClimb
      exact above first (by simp)

theorem showsRelative_way_iff {start : List Text} {place : Path} (normal : place.IsNormal) :
    ShowsRelative (specifierOf (Path.wayTo start place.steps)) ↔ PlainWay start place.steps := by
  rw [showsRelative_specifierOf_iff (Path.proper_wayTo normal.proper start)]
  exact plainWay_iff normal.onward

theorem stepsOf_specifierOf {way : List Text} (proper : Path.Proper ⟨[], way⟩) :
    Path.stepsOf (specifierOf way) = way := by
  unfold specifierOf
  split
  · exact proper.stepsOf_toText_way
  · have dotted := Path.stepsOf_append_cons ['.'] (Path.toText ⟨[], way⟩)
    rw [proper.stepsOf_toText_way] at dotted
    exact dotted

theorem bare_specifierOf (way : List Text) : startsWith (specifierOf way) ['/'] = false := by
  unfold specifierOf
  split
  · rename_i dotted
    obtain ⟨rest, same⟩ := List.isPrefixOf_iff_prefix.mp dotted
    rw [← same]
    rfl
  · rfl

/-- The place that a file is imported as: its directory with the name of its module. -/
def importedPlace (target : Path) : Path :=
  Path.flatten ⟨target.root, target.parent.steps ++ [moduleName target.toText]⟩

section

variable {artifact target : Path}

theorem importedPlace_eq (normal : target.IsNormal) (named : moduleName target.toText ≠ Path.up) :
    importedPlace target = ⟨target.root, target.parent.steps ++ [moduleName target.toText]⟩ := by
  refine Path.flatten_of_not_mem fun inside => ?_
  rcases List.mem_append.mp inside with above | own
  · exact normal.parent.onward above
  · exact named (List.mem_singleton.mp own).symm

theorem importedPlace_up (normal : target.IsNormal) (climbs : moduleName target.toText = Path.up) :
    importedPlace target = target.parent.parent := by
  rw [importedPlace, climbs]
  exact Path.flatten_concat_up (p := target.parent) normal.absolute normal.parent.onward

theorem isNormal_importedPlace (normal : target.IsNormal) (nonempty : moduleName target.toText ≠ [])
    (notDot : moduleName target.toText ≠ ['.']) : (importedPlace target).IsNormal := by
  by_cases climbs : moduleName target.toText = Path.up
  · rw [importedPlace_up normal climbs]
    exact normal.parent.parent
  · have free : '/' ∉ moduleName target.toText := fun member =>
      slash_not_mem_name _ (mem_of_mem_dropEnding (mem_of_mem_dropEnding member))
    rw [importedPlace_eq normal climbs]
    refine ⟨normal.parent.proper.child free nonempty notDot, normal.absolute, fun inside => ?_⟩
    rcases List.mem_append.mp inside with above | own
    · exact normal.parent.onward above
    · exact climbs (List.mem_singleton.mp own).symm

theorem importPath_eq (placed : artifact.IsNormal) (normal : target.IsNormal)
    (nonempty : moduleName target.toText ≠ []) (notDot : moduleName target.toText ≠ ['.'])
    (here : Path) : importPath here artifact target.toText =
      .ok (specifierOf (Path.wayTo artifact.parent.steps (importedPlace target).steps)) := by
  have free : '/' ∉ moduleName target.toText := fun member =>
    slash_not_mem_name _ (mem_of_mem_dropEnding (mem_of_mem_dropEnding member))
  have single := (ofText_eq_single_iff free).mpr ⟨nonempty, notDot⟩
  have named : target.name ≠ [] := by
    intro nameless
    apply nonempty
    rw [moduleName, normal.ofText_toText, nameless]
    decide
  have own : here.absolute ⟨target.root, target.steps.dropLast ++ [moduleName target.toText]⟩ =
      importedPlace target :=
    Path.absolute_of_root
      (p := ⟨target.root, target.steps.dropLast ++ [moduleName target.toText]⟩) normal.absolute here
  unfold importPath Path.withName
  dsimp only
  rw [← moduleName, normal.ofText_toText, if_neg (by simpa using named), if_pos single]
  dsimp only
  rw [own, placed.parent.absolute_eq]
  rfl

theorem reaches_importedPlace (placed : artifact.IsNormal) (normal : target.IsNormal)
    (nonempty : moduleName target.toText ≠ []) (notDot : moduleName target.toText ≠ ['.']) :
    (Path.ofText (Path.joinText artifact.parent.toText
      (specifierOf (Path.wayTo artifact.parent.steps (importedPlace target).steps)))).flatten =
      ⟨artifact.root, (importedPlace target).steps⟩ := by
  have place := isNormal_importedPlace normal nonempty notDot
  exact placed.parent.flatten_joinText place (bare_specifierOf _)
    (stepsOf_specifierOf (Path.proper_wayTo place.proper _))

theorem toText_append (root : Text) (front : List Text) (last ending : Text) :
    Path.toText ⟨root, front ++ [last]⟩ ++ ending =
      Path.toText ⟨root, front ++ [last ++ ending]⟩ := by
  have joined : join ['/'] (front ++ [last]) ++ ending = join ['/'] (front ++ [last ++ ending]) := by
    cases front with
    | nil => rfl
    | cons first front => simp [join_cons]
  simp [Path.toText, joined]

/-- A specifier is relative, and the place that it leads to from the probe's directory is the file
    without its ending. -/
structure LeadsTo (artifact target : Path) (ending specifier : Text) : Prop where
  relative : ShowsRelative specifier
  reaches : (Path.ofText (Path.joinText artifact.parent.toText specifier)).flatten.toText ++
    ending = target.toText

theorem eq_of_toText_append {root : Text} {front : List Text} {last ending : Text}
    (proper : Path.Proper ⟨root, front⟩) (step : '/' ∉ last ++ ending) (ends : IsEnding ending)
    (normal : target.IsNormal)
    (same : Path.toText ⟨root, front ++ [last ++ ending]⟩ = target.toText) :
    target = ⟨root, front ++ [last ++ ending]⟩ := by
  have whole : Path.Proper ⟨root, front ++ [last ++ ending]⟩ :=
    proper.child step (by simp [ends.nonempty]) (ends.notDot last)
  have read := whole.ofText_toText (by simp)
  rw [same, normal.ofText_toText] at read
  exact read

/-- A place whose text with the ending is the file's has the file's directory and its name without
    the ending. -/
theorem parts_of_toText_append {root : Text} {steps : List Text} {stem ending : Text}
    (slashes : root ≠ []) (proper : Path.Proper ⟨root, steps⟩) (ends : IsEnding ending)
    (normal : target.IsNormal) (named : target.name = stem ++ ending) (filled : stem ≠ [])
    (same : Path.toText ⟨root, steps⟩ ++ ending = target.toText) :
    root = target.root ∧ steps = target.parent.steps ++ [stem] := by
  rcases List.eq_nil_or_concat steps with rfl | ⟨front, last, parts⟩
  · have written : Path.toText ⟨root, []⟩ ++ ending = Path.toText ⟨root, [] ++ [[] ++ ending]⟩ := by
      simp [Path.toText, slashes, join]
    rw [written] at same
    rw [eq_of_toText_append proper ends.free ends normal same] at named
    exact absurd (List.append_cancel_right named).symm filled
  · rw [List.concat_eq_append] at parts
    subst parts
    have shorter : Path.Proper ⟨root, front⟩ :=
      ⟨proper.root, fun step member => proper.steps step (List.mem_append_left _ member)⟩
    have free : '/' ∉ last ++ ending := by
      rw [List.mem_append, not_or]
      exact ⟨(proper.steps last (by simp)).1, ends.free⟩
    rw [toText_append] at same
    obtain rfl := eq_of_toText_append shorter free ends normal same
    have own : last ++ ending = stem ++ ending := by simpa [Path.name] using named
    obtain rfl := List.append_cancel_right own
    simp [Path.parent]

/-- The specifier of a file is relative and leads to it just where the probe's path and the file's
    have the same root, the name of the file without its ending is neither one dot nor two and has
    not the other ending too, and the way to it begins plainly. -/
theorem importPath_leads_iff {stem ending : Text} (placed : artifact.IsNormal)
    (normal : target.IsNormal) (endings : ending = ".ts".toList ∨ ending = ".tsx".toList)
    (named : target.name = stem ++ ending) (filled : stem ≠ []) (here : Path) :
    (∃ specifier, importPath here artifact target.toText = .ok specifier ∧
        LeadsTo artifact target ending specifier) ↔
      artifact.root = target.root ∧ stem ≠ ['.'] ∧ stem ≠ Path.up ∧
        ¬ (ending = ".ts".toList ∧ endsWith stem ".tsx".toList = true) ∧
        PlainWay artifact.parent.steps (target.parent.steps ++ [stem]) := by
  have read : (Path.ofText target.toText).name = stem ++ ending := by
    rw [normal.ofText_toText, named]
  constructor
  · rintro ⟨specifier, taken, relative, reaches⟩
    obtain ⟨nonempty, notDot⟩ :=
      (importPath_ok_iff here artifact target.toText).mp ⟨specifier, taken⟩
    have place := isNormal_importedPlace normal nonempty notDot
    rw [importPath_eq placed normal nonempty notDot] at taken
    obtain rfl := Except.ok.inj taken
    rw [showsRelative_way_iff place] at relative
    rw [reaches_importedPlace placed normal nonempty notDot] at reaches
    have proper : Path.Proper ⟨artifact.root, (importedPlace target).steps⟩ :=
      ⟨placed.proper.root, place.proper.steps⟩
    obtain ⟨sameRoot, steps⟩ := parts_of_toText_append placed.absolute proper
      (isEnding_of endings) normal named filled reaches
    have notUp : moduleName target.toText ≠ Path.up := by
      intro climbs
      rw [importedPlace_up normal climbs] at steps
      have length := congrArg List.length steps
      simp [Path.parent] at length
    have sameName : moduleName target.toText = stem := by
      rw [importedPlace_eq normal notUp] at steps
      exact List.singleton_inj.mp (List.append_cancel_left steps)
    have once := (moduleName_eq_iff endings read).mp sameName
    rw [steps] at relative
    rw [sameName] at notDot notUp
    exact ⟨sameRoot, notDot, notUp, once, relative⟩
  · rintro ⟨sameRoot, notDot, notUp, once, way⟩
    have sameName := (moduleName_eq_iff endings read).mpr once
    have nonempty : moduleName target.toText ≠ [] := sameName ▸ filled
    rw [← sameName] at notDot notUp
    have place := isNormal_importedPlace normal nonempty notDot
    refine ⟨_, importPath_eq placed normal nonempty notDot here, ?_, ?_⟩
    · rw [showsRelative_way_iff place, importedPlace_eq normal notUp, sameName]
      exact way
    · have stepped : target.steps ≠ [] := by
        intro bare
        rw [Path.name, bare] at named
        exact filled (List.append_eq_nil_iff.mp named.symm).1
      have whole : (⟨target.root, target.parent.steps ++ [target.name]⟩ : Path) = target :=
        Path.parent_child_name stepped
      rw [reaches_importedPlace placed normal nonempty notDot, importedPlace_eq normal notUp, sameName,
        sameRoot, toText_append, ← named, whole]

end

/-- The name keeps the first of its two endings, and the way climbs twice. -/
theorem importPath_leads_iff_climbing :
    let artifact : Path := ⟨['/'], [['w'], ['p'], ['t'], "b.component.ts".toList]⟩
    let target : Path := ⟨['/'], [['w'], "a.ts.tsx".toList]⟩
    artifact.IsNormal ∧ target.IsNormal ∧ target.name = "a.ts".toList ++ ".tsx".toList ∧
      ∃ specifier, importPath ⟨['/'], []⟩ artifact target.toText = .ok specifier ∧
        LeadsTo artifact target ".tsx".toList specifier := by
  intro artifact target
  have placed : artifact.IsNormal := ⟨⟨by decide, by decide⟩, by decide, by decide⟩
  have normal : target.IsNormal := ⟨⟨by decide, by decide⟩, by decide, by decide⟩
  have named : target.name = "a.ts".toList ++ ".tsx".toList := by decide
  refine ⟨placed, normal, named,
    (importPath_leads_iff placed normal (.inr rfl) named (by decide) ⟨['/'], []⟩).mpr
      ⟨rfl, by decide, by decide, by decide, ?_, ?_⟩⟩
  · intro rest same
    simp [artifact, target, Path.parent] at same
  · intro step same
    simp [artifact, target, Path.parent] at same

/-- A hidden directory gives a specifier that is not relative, the directory's own name one without
    a step, and of two endings both are lost. -/
theorem importPath_misleads :
    let artifact : Path := ⟨['/'], [['w'], ['p'], "b.component.ts".toList]⟩
    (importPath ⟨['/'], []⟩ artifact "/w/p/.hidden/x.ts".toList = .ok ".hidden/x".toList ∧
      ¬ ShowsRelative ".hidden/x".toList) ∧
    (importPath ⟨['/'], []⟩ artifact "/w/p.ts".toList = .ok ['.'] ∧ ¬ ShowsRelative ['.']) ∧
    (importPath ⟨['/'], []⟩ artifact "/w/a.tsx.ts".toList = .ok "../a".toList ∧
      ¬ LeadsTo artifact ⟨['/'], [['w'], "a.tsx.ts".toList]⟩ ".ts".toList "../a".toList) := by
  intro artifact
  refine ⟨⟨by decide +kernel, ?_⟩, ⟨by decide +kernel, ?_⟩, by decide +kernel, ?_⟩
  · rw [ShowsRelative]
    decide
  · rw [ShowsRelative]
    decide
  · intro leads
    exact absurd leads.reaches (by decide +kernel)

end Probe

end TemplateTypes
