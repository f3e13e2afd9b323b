import TemplateTypes.Proofs.Files.Relative
import TemplateTypes.Proofs.Workspace.Root

namespace TemplateTypes

open Text

namespace Path

/-- The directory that a path text stands in: what is in front of its last slash, without the
    slashes there unless there is nothing else. -/
def directoryText (t : Text) : Text :=
  let front := dropEndWhile (· != '/') t
  if front.all (· == '/') then front else dropEndWhile (· == '/') front

inductive ClimbsTo (start : Text) : Text → Prop
  | here : ClimbsTo start start
  | up {t : Text} : ClimbsTo start t → ClimbsTo start (directoryText t)

variable {p : Path}

theorem join_concat {steps : List Text} (stepped : steps ≠ []) (name : Text) :
    join ['/'] (steps ++ [name]) = join ['/'] steps ++ '/' :: name := by
  obtain ⟨first, more, rfl⟩ := List.exists_cons_of_ne_nil stepped
  rw [List.cons_append, join_cons, join_cons]
  simp

theorem Proper.getLast?_join (proper : p.Proper) :
    ∀ c ∈ (join ['/'] p.steps).getLast?, (c == '/') = false := by
  obtain ⟨root, steps⟩ := p
  intro c last
  rcases List.eq_nil_or_concat' steps with rfl | ⟨above, name, rfl⟩
  · cases last
  · obtain ⟨free, nonempty, _⟩ := proper.steps name (by simp)
    have own : name.getLast? = some c := by
      by_cases stepped : above = []
      · rw [stepped] at last
        exact last
      · rw [join_concat stepped, List.getLast?_append_of_ne_nil _ (by simp)] at last
        obtain ⟨d, rest, rfl⟩ := List.exists_cons_of_ne_nil nonempty
        rwa [List.getLast?_cons_cons] at last
    have other : c ≠ '/' := by
      rintro rfl
      exact free (List.mem_of_getLast? own)
    simpa using other

theorem directoryText_of_slashes {t : Text} (slashes : t.all (· == '/') = true) :
    directoryText t = t := by
  have whole : dropEndWhile (· != '/') t = t := by
    refine dropEndWhile_of_getLast? fun c last => ?_
    simpa using List.all_eq_true.mp slashes c (List.mem_of_getLast? last)
  rw [directoryText, whole, if_pos slashes]

theorem directoryText_append {name : Text} (free : '/' ∉ name) (front : Text) :
    directoryText (front ++ '/' :: name) =
      if front.all (· == '/') then front ++ ['/'] else dropEndWhile (· == '/') front := by
  have named : name.all (· != '/') = true := by
    rw [List.all_eq_true]
    rintro c member
    have other : c ≠ '/' := by
      rintro rfl
      exact free member
    simpa using other
  have cut : dropEndWhile (· != '/') (front ++ '/' :: name) = front ++ ['/'] := by
    rw [dropEndWhile_append_cons (by decide), dropEndWhile_of_all named]
  have slash : (front ++ ['/']).all (· == '/') = front.all (· == '/') := by simp
  rw [directoryText, cut, slash, dropEndWhile_append_of_all (by decide)]

theorem IsNormal.directoryText_toText (normal : p.IsNormal) :
    directoryText p.toText = p.parent.toText := by
  have slashes : p.root.all (· == '/') = true := by
    rcases normal.root_cases with same | same <;> rw [same] <;> rfl
  rcases List.eq_nil_or_concat' p.steps with none | ⟨above, name, steps⟩
  · have bare : p.toText = p.root := by rw [normal.toText_eq, none, join, List.append_nil]
    have same : p.parent.toText = p.root := by
      rw [normal.parent.toText_eq, Path.parent, none, List.dropLast_nil, join, List.append_nil]
    rw [bare, same, directoryText_of_slashes slashes]
  · obtain ⟨free, _, _⟩ := normal.proper.steps name (by rw [steps]; simp)
    have behind : p.parent.toText = p.root ++ join ['/'] above := by
      rw [normal.parent.toText_eq, Path.parent, steps, List.dropLast_concat]
    by_cases stepped : above = []
    · obtain ⟨shorter, root, rest⟩ : ∃ shorter, p.root = shorter ++ ['/'] ∧
          shorter.all (· == '/') = true := by
        rcases normal.root_cases with same | same
        · exact ⟨[], same, rfl⟩
        · exact ⟨['/'], same, rfl⟩
      have text : p.toText = shorter ++ '/' :: name := by
        rw [normal.toText_eq, steps, stepped, root, List.append_assoc]
        rfl
      rw [text, directoryText_append free, if_pos rest, behind, stepped, root, join,
        List.append_nil]
    · have text : p.toText = (p.root ++ join ['/'] above) ++ '/' :: name := by
        rw [normal.toText_eq, steps, join_concat stepped, List.append_assoc]
      have last : ∀ c ∈ (p.root ++ join ['/'] above).getLast?, (c == '/') = false := by
        have proper := normal.parent.proper
        have kept : p.parent.steps = above := by rw [Path.parent, steps, List.dropLast_concat]
        obtain ⟨c, rest, some, _⟩ := proper.exists_join (kept ▸ stepped)
        rw [kept] at some
        rw [List.getLast?_append_of_ne_nil _ (by rw [some]; simp), ← kept]
        exact proper.getLast?_join
      have named : (p.root ++ join ['/'] above).all (· == '/') = false := by
        cases ends : (p.root ++ join ['/'] above).getLast? with
        | none => simp [List.getLast?_eq_none_iff, normal.absolute] at ends
        | some c =>
          refine List.all_eq_false.mpr ⟨c, List.mem_of_getLast? ends, ?_⟩
          simpa using last c ends
      rw [text, directoryText_append free, if_neg (by simp [named]),
        dropEndWhile_of_getLast? last, behind]

theorem IsNormal.toText_inj {q : Path} (one : p.IsNormal) (other : q.IsNormal)
    (same : p.toText = q.toText) : p = q := by
  rw [← one.ofText_toText, same, other.ofText_toText]

theorem IsNormal.of_isPrefix (normal : p.IsNormal) {above : List Text} (begins : above <+: p.steps) :
    IsNormal ⟨p.root, above⟩ :=
  ⟨⟨normal.proper.root, fun step member => normal.proper.steps step (begins.subset member)⟩,
    normal.absolute, fun inside => normal.onward (begins.subset inside)⟩

theorem IsNormal.climbsTo_iff (normal : p.IsNormal) {t : Text} :
    ClimbsTo p.toText t ↔ ∃ above, above <+: p.steps ∧ t = toText ⟨p.root, above⟩ := by
  constructor
  · intro climbs
    induction climbs with
    | here => exact ⟨p.steps, List.prefix_rfl, rfl⟩
    | up _ ih =>
      obtain ⟨above, begins, rfl⟩ := ih
      refine ⟨above.dropLast, (List.dropLast_prefix above).trans begins, ?_⟩
      rw [(normal.of_isPrefix begins).directoryText_toText]
      rfl
  · rintro ⟨above, ⟨rest, whole⟩, rfl⟩
    induction rest generalizing above with
    | nil =>
      rw [List.append_nil] at whole
      rw [whole]
      exact .here
    | cons step rest ih =>
      have lower := ih (above ++ [step]) (by rw [← whole, List.append_assoc]; rfl)
      have begins : above ++ [step] <+: p.steps := ⟨rest, by rw [← whole, List.append_assoc]; rfl⟩
      have next := (normal.of_isPrefix begins).directoryText_toText
      rw [Path.parent, List.dropLast_concat] at next
      rw [← next]
      exact .up lower

end Path

namespace Workspace

open TemplateTypes.Path

def HasMarker (files : FileTree) (markers : List Text) (directory : Text) : Prop :=
  ∃ marker ∈ markers, files.isFile (joinText directory marker) = true

/-- Where the search from `start` ends once it has come to a directory: there, when that has a
    marker; back at `start`, when it stands in itself; else where it ends from the next one. -/
inductive SearchEnds (files : FileTree) (markers : List Text) (start : Text) : Text → Text → Prop
  | marked {t : Text} : HasMarker files markers t → SearchEnds files markers start t t
  | top {t : Text} : ¬ HasMarker files markers t → directoryText t = t →
      SearchEnds files markers start t start
  | up {t root : Text} : ¬ HasMarker files markers t → directoryText t ≠ t →
      SearchEnds files markers start (directoryText t) root →
      SearchEnds files markers start t root

def directoryOf (files : FileTree) (path : Text) : Text := directoryText (absolute files path).toText

/-- The file's directory is at or below the root, and no directory from it up to below the root has
    a marker. -/
def IsOpenUpTo (files : FileTree) (markers : List Text) (path root : Text) : Prop :=
  ClimbsTo (directoryOf files path) root ∧
    ∀ t, ClimbsTo (directoryOf files path) t → ClimbsTo t root → t ≠ root →
      ¬ HasMarker files markers t

variable {files : FileTree} {markers : List Text}

theorem hasMarker_toText {p : Path} :
    HasMarker files markers p.toText ↔ holdsMarker files markers p = true := by
  simp [HasMarker, holdsMarker]

theorem searchEnds_iff {start t root : Text} :
    SearchEnds files markers start t root ↔
      (HasMarker files markers t ∧ root = t) ∨
        (¬ HasMarker files markers t ∧ directoryText t = t ∧ root = start) ∨
        (¬ HasMarker files markers t ∧ directoryText t ≠ t ∧
          SearchEnds files markers start (directoryText t) root) := by
  constructor
  · rintro (marked | ⟨unmarked, top⟩ | ⟨unmarked, inner, ends⟩)
    · exact .inl ⟨marked, rfl⟩
    · exact .inr (.inl ⟨unmarked, top, rfl⟩)
    · exact .inr (.inr ⟨unmarked, inner, ends⟩)
  · rintro (⟨marked, rfl⟩ | ⟨unmarked, top, rfl⟩ | ⟨unmarked, inner, ends⟩)
    · exact .marked marked
    · exact .top unmarked top
    · exact .up unmarked inner ends

theorem searchEnds_toText {root : Text} {above : List Text}
    (normal : IsNormal ⟨root, above.reverse⟩) {start t : Text} :
    SearchEnds files markers start (toText ⟨root, above.reverse⟩) t ↔
      t = (((ancestorsFrom root above).find? (holdsMarker files markers)).map toText).getD start := by
  induction above with
  | nil =>
    have top : directoryText (toText ⟨root, []⟩) = toText ⟨root, []⟩ := normal.directoryText_toText
    rw [List.reverse_nil, searchEnds_iff, hasMarker_toText, ancestorsFrom, List.find?_singleton]
    cases marked : holdsMarker files markers ⟨root, []⟩ <;> simp [top]
  | cons step above ih =>
    rw [List.reverse_cons] at normal ⊢
    have higher : (Path.mk root (above.reverse ++ [step])).parent = ⟨root, above.reverse⟩ := by
      rw [parent, List.dropLast_concat]
    have normalAbove : IsNormal ⟨root, above.reverse⟩ := higher ▸ normal.parent
    have inner : directoryText (toText ⟨root, above.reverse ++ [step]⟩) =
        toText ⟨root, above.reverse⟩ := by rw [normal.directoryText_toText, higher]
    have differs : toText ⟨root, above.reverse⟩ ≠ toText ⟨root, above.reverse ++ [step]⟩ := by
      intro same
      have steps := congrArg Path.steps (normalAbove.toText_inj normal same)
      simp at steps
    rw [searchEnds_iff, hasMarker_toText, inner, ih normalAbove, ancestorsFrom, List.find?_cons,
      List.reverse_cons]
    cases marked : holdsMarker files markers ⟨root, above.reverse ++ [step]⟩ <;> simp [differs]

theorem isNormal_absolute (named : IsNamed files.here) (path : Text) :
    (absolute files path).IsNormal := by
  have proper := named.proper.append (proper_ofText path)
  refine proper.isNormal_flatten ?_
  show (Path.append ⟨['/'], files.here⟩ (ofText path)).root ≠ []
  unfold Path.append
  split
  · rename_i absolute
    simpa [isAbsolute] using absolute
  · simp

theorem directoryOf_eq (named : IsNamed files.here) (path : Text) :
    directoryOf files path = (absolute files path).parent.toText :=
  (isNormal_absolute named path).directoryText_toText

theorem searchEnds_rootOf (named : IsNamed files.here) (path t : Text) :
    SearchEnds files markers (directoryOf files path) (directoryOf files path) t ↔
      t = (rootOf files markers path).toText := by
  have normal := (isNormal_absolute named path).parent
  rw [directoryOf_eq named, rootOf]
  generalize (absolute files path).parent = start at normal
  have ends := @searchEnds_toText files markers start.root start.steps.reverse
    (by rwa [List.reverse_reverse]) start.toText t
  rw [List.reverse_reverse] at ends
  rwa [Option.getD_map] at ends

theorem rootOf_marked_or_own (named : IsNamed files.here) (path : Text) :
    let start := directoryOf files path
    let root := (rootOf files markers path).toText
    ClimbsTo start root ∧
      ((HasMarker files markers root ∧
          ∀ t, ClimbsTo start t → HasMarker files markers t → ClimbsTo root t) ∨
        (root = start ∧ ∀ t, ClimbsTo start t → ¬ HasMarker files markers t)) := by
  intro start root
  have normal := (isNormal_absolute named path).parent
  have own : start = (absolute files path).parent.toText := directoryOf_eq named path
  obtain ⟨nearest, same, begins, cases⟩ := rootOf_eq_or files markers path
  have text : root = toText ⟨(absolute files path).parent.root, nearest⟩ := congrArg toText same
  have climbs := fun t => normal.climbsTo_iff (t := t)
  rw [← own] at climbs
  refine ⟨(climbs root).mpr ⟨nearest, begins, text⟩, ?_⟩
  rcases cases with ⟨marked, others⟩ | ⟨rfl, unmarked⟩
  · refine .inl ⟨text ▸ hasMarker_toText.mpr marked, fun t above has => ?_⟩
    obtain ⟨steps, inside, rfl⟩ := (climbs t).mp above
    have higher := others steps inside (hasMarker_toText.mp has)
    rw [text]
    exact (normal.of_isPrefix begins).climbsTo_iff.mpr ⟨steps, higher, rfl⟩
  · refine .inr ⟨text.trans own.symm, fun t above has => ?_⟩
    obtain ⟨steps, inside, rfl⟩ := (climbs t).mp above
    rw [hasMarker_toText, unmarked steps inside] at has
    cases has

theorem rootOf_of_isOpenUpTo (named : IsNamed files.here) {path marked : Text}
    (has : HasMarker files markers marked) (isOpen : IsOpenUpTo files markers path marked) :
    (rootOf files markers path).toText = marked := by
  obtain ⟨above, between⟩ := isOpen
  obtain ⟨climbs, ⟨own, nearest⟩ | ⟨_, unmarked⟩⟩ := rootOf_marked_or_own named path
  · by_contra other
    exact between _ climbs (nearest marked above has) other own
  · exact absurd has (unmarked marked above)

/-- The search for a root ends, and nowhere but at the root. That is a directory that climbing from
    the file's own leads to: where one of those has a marker, the nearest that has one, whichever
    marker it is, and else the file's own. So all files that a marked directory is open to have that
    one as their root. -/
theorem rootOf_nearest (named : IsNamed files.here) (markers : List Text) (path : Text) :
    let start := directoryOf files path
    let root := (rootOf files markers path).toText
    (∀ t, SearchEnds files markers start start t ↔ t = root) ∧
      ClimbsTo start root ∧
      ((∃ t, ClimbsTo start t ∧ HasMarker files markers t) →
        HasMarker files markers root ∧
          ∀ t, ClimbsTo start t → HasMarker files markers t → ClimbsTo root t) ∧
      ((∀ t, ClimbsTo start t → ¬ HasMarker files markers t) → root = start) ∧
      ∀ other marked, HasMarker files markers marked → IsOpenUpTo files markers path marked →
        IsOpenUpTo files markers other marked →
          root = marked ∧ (rootOf files markers other).toText = marked := by
  intro start root
  obtain ⟨climbs, cases⟩ := @rootOf_marked_or_own files markers named path
  refine ⟨searchEnds_rootOf named path, climbs, ?_, ?_, ?_⟩
  · rintro ⟨t, above, has⟩
    rcases cases with found | ⟨_, unmarked⟩
    · exact found
    · exact absurd has (unmarked t above)
  · intro unmarked
    rcases cases with ⟨has, _⟩ | ⟨own, _⟩
    · exact absurd has (unmarked root climbs)
    · exact own
  · intro other marked has first second
    exact ⟨rootOf_of_isOpenUpTo named has first, rootOf_of_isOpenUpTo named has second⟩

instance (files : FileTree) (markers : List Text) (directory : Text) :
    Decidable (HasMarker files markers directory) :=
  inferInstanceAs (Decidable (∃ marker ∈ markers, _))

def markedAbove : FileTree where
  here := ["w".toList, "src".toList]
  capacity := none
  nodes := [
    (["w".toList], .directory),
    (["w".toList, "angular.json".toList], .file [] 0),
    (["w".toList, "src".toList], .directory),
    (["w".toList, "src".toList, "package.json".toList], .directory)]

/-- One file in a directory that is not there, and one in the marked directory itself. -/
theorem rootOf_nearest_past_directory :
    let missing := "./gone//a.ts".toList
    let higher := "../b.ts".toList
    IsNamed markedAbove.here ∧ directoryOf markedAbove missing = "/w/src/gone".toList ∧
      HasMarker markedAbove defaultMarkers "/w".toList ∧
      IsOpenUpTo markedAbove defaultMarkers missing "/w".toList ∧
      IsOpenUpTo markedAbove defaultMarkers higher "/w".toList ∧
      (rootOf markedAbove defaultMarkers missing).toText = "/w".toList ∧
      (rootOf markedAbove defaultMarkers higher).toText = "/w".toList ∧
      SearchEnds markedAbove defaultMarkers "/w/src/gone".toList "/w/src/gone".toList
        "/w".toList := by
  intro missing higher
  have named : IsNamed markedAbove.here := by decide
  have own : directoryOf markedAbove missing = "/w/src/gone".toList := by decide +kernel
  have upper : directoryOf markedAbove higher = "/w".toList := by decide +kernel
  have has : HasMarker markedAbove defaultMarkers "/w".toList := by decide +kernel
  let places := ["/w/src/gone".toList, "/w/src".toList, "/w".toList, "/".toList]
  have next : ∀ t ∈ places, directoryText t ∈ places := by decide
  have others : ∀ t ∈ places, t ≠ "/w".toList → ¬ HasMarker markedAbove defaultMarkers t := by
    decide +kernel
  have among : ∀ start ∈ places, ∀ t, ClimbsTo start t → t ∈ places := by
    intro start member t climbs
    induction climbs with
    | here => exact member
    | up _ ih => exact next _ ih
  have first : IsOpenUpTo markedAbove defaultMarkers missing "/w".toList := by
    rw [IsOpenUpTo, own]
    exact ⟨.up (.up .here), fun t above _ other => others t (among _ (by decide) t above) other⟩
  have second : IsOpenUpTo markedAbove defaultMarkers higher "/w".toList := by
    rw [IsOpenUpTo, upper]
    exact ⟨.here, fun t above _ other => others t (among _ (by decide) t above) other⟩
  obtain ⟨ends, _, _, _, share⟩ := rootOf_nearest named defaultMarkers missing
  obtain ⟨root, rootHigher⟩ := share higher _ has first second
  have search := (ends "/w".toList).mpr root.symm
  rw [own] at search
  exact ⟨named, own, has, first, second, root, rootHigher, search⟩

end Workspace

end TemplateTypes
