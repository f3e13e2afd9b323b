import TemplateTypes.Proofs.Probe.Anchor
import TemplateTypes.Proofs.Resolver.Independence
import TemplateTypes.Proofs.TypeText.Respacing

namespace TemplateTypes

open Text

def piped (e p : Text) : Text := e ++ " | ".toList ++ p

theorem splitTop_piped {e : Text} (closes : Closes e) (p : Text) :
    splitTop '|' (piped e p) = splitTop '|' e ++ splitTop '|' p := by
  have space : isBlank ' ' = true := by decide
  have step := (Scanner.proper_start.run e).next_blank space
  have cuts : (Scanner.start.run (e ++ [' '])).cuts '|' '|' (' ' :: p) = true := by
    rw [Scanner.run_append, Scanner.run_cons, step]
    exact (Scanner.cuts_iff isSeparator_bar).mpr ⟨closes, fun _ => ⟨by simp [Scanner.run], by simp⟩⟩
  have text : piped e p = (e ++ [' ']) ++ '|' :: (' ' :: p) := by simp [piped]
  have fresh := Scanner.fresh_of_cuts isSeparator_bar cuts
  have parts : splitTop '|' (piped e p) = splitTop '|' (e ++ [' ']) ++ splitTop '|' (' ' :: p) := by
    rw [splitTop, text, topPiecesFrom_append_cut isSeparator_bar cuts, fresh.topPiecesFrom_eq,
      List.map_append, List.filter_append, splitTop, splitTop]
  have before : trim (e ++ [' ']) = trim e := by
    have around := trim_blanks (a := []) (b := [' ']) rfl (by decide) e
    simpa using around
  have behind : trim (' ' :: p) = trim p := by
    have around := trim_blanks (a := [' ']) (b := []) (by decide) rfl p
    simpa using around
  rw [parts, ← splitTop_trim isSeparator_bar.solid (e ++ [' ']), before,
    splitTop_trim isSeparator_bar.solid, ← splitTop_trim isSeparator_bar.solid (' ' :: p), behind,
    splitTop_trim isSeparator_bar.solid]

theorem describeExpression_congr {e q : Text}
    (same : (splitTop '|' q).head? = (splitTop '|' e).head?) (shapes : List TypeShape)
    (owner : Text) :
    describeExpression shapes owner q = describeExpression shapes owner e := by
  unfold describeExpression
  cases parts : splitTop '|' q with
  | nil =>
    rw [parts, List.head?_nil, eq_comm, List.head?_eq_none_iff] at same
    rw [same]
  | cons main more =>
    rw [parts, List.head?_cons, eq_comm, List.head?_eq_some_iff] at same
    obtain ⟨others, same⟩ := same
    rw [same]

namespace Anchor

section

variable {r : Reading} {e u : Text} {i : Nat}

theorem nameAt_append (within : i < e.length) : NameAt r (e ++ u) i ↔ NameAt r e i := by
  rw [NameAt, NameAt, List.take_append_of_le_length (Nat.le_of_lt within),
    List.getElem?_append_left within]

theorem stopAt_append (within : i < e.length) (apart : u.head? ≠ some '|') :
    StopAt r (e ++ u) i ↔ StopAt r e i := by
  have next : (e ++ u)[i + 1]? ≠ some '|' ↔ e[i + 1]? ≠ some '|' := by
    rcases Nat.lt_or_ge (i + 1) e.length with inside | last
    · rw [List.getElem?_append_left inside]
    · have here : i + 1 - e.length = 0 := by omega
      rw [List.getElem?_append_right last, List.getElem?_eq_none last, here,
        ← List.head?_eq_getElem?]
      exact iff_of_true apart (by simp)
  rw [StopAt, StopAt, ParenAt, ParenAt, PipeAt, PipeAt, next,
    List.take_append_of_le_length (Nat.le_of_lt within), List.getElem?_append_left within]

variable {n k : Nat}

theorem FirstStop.append (first : FirstStop e 0 n) (stops : n < e.length)
    (apart : u.head? ≠ some '|') : FirstStop (e ++ u) 0 n where
  lower := first.lower
  upper := by
    rw [List.length_append]
    omega
  before := fun i lower below =>
    mt (stopAt_append (Nat.lt_trans below stops) apart).mp (first.before i lower below)
  ends := fun _ => (stopAt_append stops apart).mpr (first.ends stops)

theorem SettlesOn.append {m : Nat} (settles : SettlesOn e 0 n 0 k) (within : n ≤ e.length)
    (further : n ≤ m) (silent : ∀ i, n ≤ i → i < m → ¬ NameAt .bare (e ++ u) i) :
    SettlesOn (e ++ u) 0 m 0 k := by
  have same : ∀ {i}, i < n → (NameAt .bare (e ++ u) i ↔ NameAt .bare e i) :=
    fun below => nameAt_append (Nat.lt_of_lt_of_le below within)
  have later : ∀ {first}, (∀ i, first ≤ i → i < n → ¬ NameAt .bare e i) →
      ∀ i, first ≤ i → i < m → ¬ NameAt .bare (e ++ u) i := by
    intro first none i lower below
    rcases Nat.lt_or_ge i n with before | behind
    · exact mt (same before).mp (none i lower before)
    · exact silent i behind below
  rcases settles with ⟨zero, none⟩ | ⟨lower, below, named, none⟩
  · exact .inl ⟨zero, later none⟩
  · exact .inr ⟨lower, Nat.lt_of_lt_of_le below further, (same below).mpr named, later none⟩

theorem piped_blank (e p : Text) : (piped e p)[e.length]? = some ' ' := by simp [piped]

theorem firstStop_piped (first : FirstStop e 0 e.length) (top : outside .guarded e = true)
    (p : Text) : FirstStop (piped e p) 0 (e.length + 1) := by
  have text : piped e p = (e ++ [' ']) ++ '|' :: (' ' :: p) := by simp [piped]
  have length : (e ++ [' ']).length = e.length + 1 := by simp
  have behind : place .guarded (e ++ [' ']) = place .guarded e := by
    rw [place_concat]
    exact Place.next_other (Place.isTop_iff.mp top).2 (by decide) (by decide) (by decide)
  have stop : StopAt .guarded (piped e p) (e.length + 1) := by
    rw [text, ← length, stopAt_iff, outside, behind]
    exact ⟨top, .inr ⟨rfl, by simp, by simp⟩⟩
  refine ⟨Nat.zero_le _, ?_, fun i lower below => ?_, fun _ => stop⟩
  · rw [text, List.length_append]
    omega
  · rcases Nat.lt_or_ge i e.length with within | reached
    · rw [piped, List.append_assoc]
      exact mt (stopAt_append within (by simp)).mp (first.before i lower within)
    · obtain rfl : i = e.length := by omega
      intro atBlank
      rcases atBlank.sign with sign | sign
      all_goals cases (piped_blank e p).symm.trans sign

theorem not_nameAt_blank (r : Reading) (e p : Text) : ¬ NameAt r (piped e p) e.length := by
  rintro ⟨_, _, c, there, start⟩
  cases (piped_blank e p).symm.trans there
  exact absurd start (by decide)

end

end Anchor

theorem hoverAnchor_piped {e : Text}
    (closes : Anchor.outside .guarded e = true ∨ ∃ i, Anchor.StopAt .guarded e i) (p : Text) :
    hoverAnchor (piped e p) = hoverAnchor e := by
  have text : piped e p = e ++ (" | ".toList ++ p) := List.append_assoc e _ p
  have first := Anchor.limit_firstStop e
  have settles := Anchor.hoverAnchor_settlesOn e
  have found := Anchor.hoverAnchor_settlesOn (piped e p)
  refine found.unique ?_
  rcases Nat.lt_or_ge (Anchor.limit e) e.length with stops | reached
  · have limit : Anchor.limit (piped e p) = Anchor.limit e :=
      (Anchor.limit_firstStop _).unique (text ▸ first.append stops (by simp))
    rw [limit, text]
    exact settles.append first.upper (Nat.le_refl _) fun i lower below => by omega
  · have whole : Anchor.limit e = e.length := Nat.le_antisymm first.upper reached
    rw [whole] at first settles
    have top : Anchor.outside .guarded e = true := by
      rcases closes with top | ⟨i, stop⟩
      · exact top
      · exact absurd stop (first.before i (Nat.zero_le i) stop.lt_length)
    have limit : Anchor.limit (piped e p) = e.length + 1 :=
      (Anchor.limit_firstStop _).unique (Anchor.firstStop_piped first top p)
    rw [limit, text]
    refine settles.append (Nat.le_refl _) (Nat.le_succ _) fun i lower below => ?_
    obtain rfl : i = e.length := by omega
    rw [← text]
    exact Anchor.not_nameAt_blank .bare e p

namespace Local

section

variable {e : Text} (closes : Closes e) (visible : splitTop '|' e ≠ []) (p : Text)

include closes visible

theorem describeIn_piped (file : ParsedFile) :
    describeIn file (piped e p) = describeIn file e := by
  have first : (splitTop '|' (piped e p)).head? = (splitTop '|' e).head? := by
    rw [splitTop_piped closes, List.head?_append_of_ne_nil _ visible]
  unfold describeIn
  split
  · rfl
  · rw [describeExpression_congr first]

theorem describe_piped (cache : WorkspaceCache) (files : FileTree) (now : Int) (owner : Text) :
    describe cache files now owner (piped e p) = describe cache files now owner e := by
  unfold describe
  split
  · rfl
  · split
    · rfl
    · rfl
    · rw [describeIn_piped closes visible]

theorem outcome_piped (limits : WorkspaceLimits) (files : FileTree) (owner : Text) :
    outcome limits files owner (piped e p) = outcome limits files owner e := by
  simp only [outcome, describeIn_piped closes visible]

end

theorem describe_again {limits : WorkspaceLimits} {calls : List WorkspaceCache.Call}
    {files after : FileTree} {owner : Text}
    (upToDate : (WorkspaceCache.run limits calls).UpToDate files) (here : after.here = files.here)
    (unchanged : (after.read (WorkspaceCache.placeOf files owner)).toOption =
      (files.read (WorkspaceCache.placeOf files owner)).toOption)
    (now later : Int) (first second : Text) :
    let before := describe (WorkspaceCache.run limits calls) files now owner first
    before.1 = outcome limits files owner first ∧
      (describe before.2 after later owner second).1 = outcome limits files owner second := by
  intro before
  have coherent := upToDate.coherent (WorkspaceCache.placeOf files owner)
  have described := describe_outcome now coherent first
  obtain ⟨_, next, same⟩ := describe_eq now coherent first
  rw [WorkspaceCache.run_limits] at described same
  have current : before.2.ReadsCurrent after (WorkspaceCache.placeOf after owner) := by
    rw [WorkspaceCache.placeOf_congr here]
    exact next.imp fun _ _ _ _ known => known.congr unchanged
  have again := describe_outcome later current second
  rw [same, outcome_congr here unchanged] at again
  exact ⟨described, again⟩

end Local

/-- Behind an expression that closes its brackets and literals a pipe changes neither the place
    where a hover is asked for nor what the owner's source file says: not for the same cache, and
    not when one of the two is asked after the other while the owner's file is left alone. -/
theorem pipe_changes_nothing {e : Text}
    (closesForAnchor : Anchor.outside .guarded e = true ∨ ∃ i, Anchor.StopAt .guarded e i)
    (closes : Closes e) (visible : splitTop '|' e ≠ []) (p : Text) :
    hoverAnchor (piped e p) = hoverAnchor e ∧
    (∀ cache files now owner,
      Local.describe cache files now owner (piped e p) =
        Local.describe cache files now owner e) ∧
    ∀ limits calls files after owner, (WorkspaceCache.run limits calls).UpToDate files →
      after.here = files.here →
      (after.read (WorkspaceCache.placeOf files owner)).toOption =
        (files.read (WorkspaceCache.placeOf files owner)).toOption →
      ∀ now later, ∀ first ∈ [e, piped e p], ∀ second ∈ [e, piped e p],
        let before := Local.describe (WorkspaceCache.run limits calls) files now owner first
        (Local.describe before.2 after later owner second).1 = before.1 := by
  refine ⟨hoverAnchor_piped closesForAnchor p, Local.describe_piped closes visible p, ?_⟩
  intro limits calls files after owner upToDate here unchanged now later first isFirst second
    isSecond before
  have same : ∀ x ∈ [e, piped e p],
      Local.outcome limits files owner x = Local.outcome limits files owner e := by
    intro x member
    rcases List.mem_pair.mp member with rfl | rfl
    · rfl
    · exact Local.outcome_piped closes visible p limits files owner
  obtain ⟨described, again⟩ :=
    Local.describe_again upToDate here unchanged now later first second
  exact again.trans ((same second isSecond).trans ((same first isFirst).symm.trans described.symm))

/-- The expression has an escaped quote, and its pipe a bar in a literal and an open parenthesis. -/
theorem pipe_changes_nothing_escaped :
    let e := "names['\\''.length]".toList
    let p := "slice : '|' : (1".toList
    let source := "@Component(\x7b\x7d) class A \x7b names: string[]; \x7d".toList
    let files : FileTree := ⟨[], [([['a']], .file (Utf8.encode source) 1)], none⟩
    let cache := WorkspaceCache.run .default []
    let before := Local.describe cache files 0 "/a".toList e
    (Anchor.outside .guarded e = true ∧ Closes e ∧ splitTop '|' e ≠ [] ∧ cache.UpToDate files) ∧
    hoverAnchor (piped e p) = 0 ∧
    before.1 = .ok (some "(property) names: string".toList) ∧
    (Local.describe before.2 files 7 "/a".toList (piped e p)).1 =
      .ok (some "(property) names: string".toList) := by
  intro e p source files cache before
  have outside : Anchor.outside .guarded e = true := by decide +kernel
  have closes : Closes e := by
    constructor <;> decide +kernel
  have visible : splitTop '|' e ≠ [] := by decide +kernel
  have upToDate : cache.UpToDate files := fun w member => absurd member List.not_mem_nil
  have described : before.1 = .ok (some "(property) names: string".toList) := by decide +kernel
  have anchor : hoverAnchor e = 0 := by decide +kernel
  obtain ⟨sameAnchor, _, again⟩ := pipe_changes_nothing (.inl outside) closes visible p
  have second := again .default [] files files "/a".toList upToDate rfl rfl 0 7 e (by simp)
    (piped e p) (by simp)
  exact ⟨⟨outside, closes, visible, upToDate⟩, sameAnchor.trans anchor, described,
    second.trans described⟩

end TemplateTypes
