import TemplateTypes.Files.Confine
import TemplateTypes.Proofs.Files.Links

namespace TemplateTypes

open Text

namespace FileTree

def seenFrom (base : Place) (path : Text) : Path := Path.ofText (placeText base) / Path.ofText path

section

variable {base : Place} {path : Text}

theorem seenFrom_of_absolute (absolute : startsWith path ['/'] = true) :
    seenFrom base path = Path.ofText path := by
  have rooted : Path.rootOf path ≠ [] := fun none => by
    rw [Path.rootOf_eq_nil_iff, absolute] at none
    cases none
  exact if_pos (by simp [Path.isAbsolute, Path.ofText, rooted])

theorem seenFrom_of_relative (named : IsNamed base) (relative : startsWith path ['/'] = false) :
    seenFrom base path = ⟨['/'], base ++ Path.stepsOf path⟩ := by
  have rootless : Path.rootOf path = [] := Path.rootOf_eq_nil_iff.mpr relative
  unfold seenFrom
  rw [ofText_placeText named]
  exact if_neg (by simp [Path.isAbsolute, Path.ofText, rootless])

theorem proper_seenFrom (base : Place) (path : Text) : (seenFrom base path).Proper :=
  (Path.proper_ofText _).append (Path.proper_ofText _)

theorem root_seenFrom (named : IsNamed base) (path : Text) : (seenFrom base path).root ≠ [] := by
  cases absolute : startsWith path ['/'] with
  | true =>
    rw [seenFrom_of_absolute absolute]
    intro none
    rw [Path.ofText, Path.rootOf_eq_nil_iff, absolute] at none
    cases none
  | false =>
    rw [seenFrom_of_relative named absolute]
    exact List.cons_ne_nil _ _

theorem steps_seenFrom (named : IsNamed base) (path : Text) :
    (seenFrom base path).steps = outset base path ++ Path.stepsOf path := by
  unfold outset
  cases absolute : startsWith path ['/'] with
  | true => rw [seenFrom_of_absolute absolute]; rfl
  | false => rw [seenFrom_of_relative named absolute]; rfl

theorem nul_mem_seenFrom_iff (named : IsNamed base) (path : Text) :
    '\x00' ∈ (seenFrom base path).toText ↔ '\x00' ∈ path := by
  rw [(proper_seenFrom base path).nul_mem_toText_iff (root_seenFrom named path),
    steps_seenFrom named path, Path.nul_mem_iff path]
  constructor
  · rintro ⟨step, member, own⟩
    rcases List.mem_append.mp member with above | member
    · exact absurd own (named.outset path step above).2.2.1
    · exact ⟨step, member, own⟩
  · rintro ⟨step, member, own⟩
    exact ⟨step, List.mem_append_right _ member, own⟩

end

section

variable {tree : FileTree} {path root : Text}

theorem Kept.confine_eq_unusable_iff (kept : tree.Kept) (rooted : '\x00' ∉ root) :
    tree.confine path root = .error .unusable ↔
      '\x00' ∈ path ∧ ∀ place, tree.resolve root ≠ .error (.loop place) := by
  unfold confine
  split
  · rename_i blank
    have noNul : '\x00' ∉ path := fun inside => by
      have space := List.all_eq_true.mp blank _ inside
      revert space
      decide
    exact iff_of_false (by simp) fun refused => noNul refused.1
  · cases based : tree.resolve root with
    | error cause =>
      cases cause with
      | loop place => simp [ConfineError.ofResolve]
      | nulCharacter =>
        rw [resolve_eq rooted] at based
        split at based <;> cases based
    | ok base =>
      have named := kept.isNamed_of_resolve based
      have joined : Path.ofText (placeText base) / Path.ofText path = seenFrom base path := rfl
      dsimp only
      rw [joined, ← nul_mem_seenFrom_iff named path]
      by_cases inside : '\x00' ∈ (seenFrom base path).toText
      · have unresolved : tree.resolve (seenFrom base path).toText = .error .nulCharacter :=
          if_pos (by simpa using inside)
        simp [unresolved, inside, ConfineError.ofResolve]
      · refine iff_of_false ?_ fun refused => inside refused.1
        rw [resolve_eq inside]
        intro refused
        split at refused
        · rename_i unresolved
          split at unresolved <;> cases unresolved
          cases refused
        · split at refused <;> cases refused

variable {base place : Place}

theorem Kept.resolve_seenFrom (kept : tree.Kept) (plain : '\x00' ∉ path) (named : IsNamed base)
    (straight : IsStraight tree.linkAt? base) (real : IsRealPlace tree.linkAt? base path place) :
    tree.resolve (seenFrom base path).toText = .ok place := by
  obtain ⟨depth, way⟩ := real
  have proper := proper_seenFrom base path
  have absolute := root_seenFrom named path
  have begun := straight.outset linkAt?_root path
  refine kept.resolve_of_leads (mt (nul_mem_seenFrom_iff named path).mp plain)
    (?_ : Leads _ depth _ _ _)
  rw [outset, proper.startsWith_toText absolute, if_pos rfl, proper.stepsOf_toText absolute,
    steps_seenFrom named path]
  exact (leads_names_iff (named.outset path).not_mem_up fun start begins _ => begun start begins).mpr
    way

theorem Kept.confine_eq (kept : tree.Kept) (plain : '\x00' ∉ path) (rooted : '\x00' ∉ root)
    (filled : allBlank path = false) (based : IsRealPlace tree.linkAt? tree.here root base)
    (real : IsRealPlace tree.linkAt? base path place) :
    tree.confine path root =
      if base.isPrefixOf place then .ok place else .error (.outside path) := by
  obtain ⟨_, way⟩ := based
  have resolvedRoot := kept.resolve_of_leads rooted way
  have straight := way.isStraight linkAt?_root
    ((isStraight_linkAt? (kept.isStraight kept.here)).outset linkAt?_root root)
  have resolved := kept.resolve_seenFrom plain (kept.isNamed_of_resolve resolvedRoot) straight real
  unfold seenFrom at resolved
  simp only [confine, filled, Bool.false_eq_true, ↓reduceIte, resolvedRoot, resolved]

theorem Kept.confine_eq_ok_iff (kept : tree.Kept) (acyclic : Acyclic tree.linkAt?)
    (plain : '\x00' ∉ path) (rooted : '\x00' ∉ root) (filled : allBlank path = false) :
    tree.confine path root = .ok place ↔
      ∃ base, IsRealPlace tree.linkAt? tree.here root base ∧
        IsRealPlace tree.linkAt? base path place ∧ base <+: place := by
  obtain ⟨rootDepth, base, based⟩ := acyclic.leads (outset tree.here root) (Path.stepsOf root)
  obtain ⟨depth, goal, way⟩ := acyclic.leads (outset base path) (Path.stepsOf path)
  rw [kept.confine_eq plain rooted filled ⟨rootDepth, based⟩ ⟨depth, way⟩]
  constructor
  · intro accepted
    split at accepted
    · rename_i inside
      obtain rfl := Except.ok.inj accepted
      exact ⟨base, ⟨_, based⟩, ⟨_, way⟩, List.isPrefixOf_iff_prefix.mp inside⟩
    · cases accepted
  · rintro ⟨other, ⟨_, based'⟩, ⟨_, way'⟩, inside⟩
    obtain rfl := based.unique based'
    obtain rfl := way.unique way'
    rw [if_pos (List.isPrefixOf_iff_prefix.mpr inside)]

theorem Kept.plain_of_confine (kept : tree.Kept) (confined : tree.confine path root = .ok place) :
    '\x00' ∉ path ∧ '\x00' ∉ root ∧ allBlank path = false := by
  have based : ∃ base, tree.resolve root = .ok base := by
    cases based : tree.resolve root with
    | ok base => exact ⟨base, rfl⟩
    | error cause =>
      rw [confine, based] at confined
      split at confined <;> cases confined
  obtain ⟨base, based⟩ := based
  have rooted := (resolve_eq_ok based).1
  refine ⟨fun inside => ?_, rooted, ?_⟩
  · have refused := (kept.confine_eq_unusable_iff rooted).mpr ⟨inside, by simp [based]⟩
    rw [refused] at confined
    cases confined
  · cases blank : allBlank path with
    | false => rfl
    | true =>
      rw [confine, if_pos blank] at confined
      cases confined

theorem Kept.straight_of_confine (kept : tree.Kept) (acyclic : Acyclic tree.linkAt?)
    (confined : tree.confine path root = .ok place) (based : tree.resolve root = .ok base) :
    IsNamed place ∧ IsStraight tree.linkAt? place ∧ base <+: place := by
  obtain ⟨plain, rooted, filled⟩ := kept.plain_of_confine confined
  obtain ⟨seen, ⟨_, way⟩, real, below⟩ :=
    (kept.confine_eq_ok_iff acyclic plain rooted filled).mp confined
  obtain rfl := Except.ok.inj (based.symm.trans (kept.resolve_of_leads rooted way))
  have named := kept.isNamed_of_resolve based
  have straight : IsStraight tree.linkAt? base := way.isStraight linkAt?_root
    ((isStraight_linkAt? (kept.isStraight kept.here)).outset linkAt?_root root)
  refine ⟨kept.isNamed_of_resolve (kept.resolve_seenFrom plain named straight real), ?_, below⟩
  obtain ⟨_, onward⟩ := real
  exact onward.isStraight linkAt?_root (straight.outset linkAt?_root path)

/-- A path is accepted just when its real place lies at or below the real place of the root, and
    then with this place. -/
def ConfinesExactly (tree : FileTree) : Prop :=
  ∀ path root place, '\x00' ∉ path → '\x00' ∉ root → allBlank path = false →
    (tree.confine path root = .ok place ↔
      ∃ base, IsRealPlace tree.target? tree.here root base ∧
        IsRealPlace tree.target? base path place ∧ base <+: place)

theorem isRealPlace_placeText {follow : Place → Option Text} (named : IsNamed place)
    (straight : IsStraight follow place) (seen : Place) :
    IsRealPlace follow seen (placeText place) place := by
  refine ⟨0, ?_⟩
  rw [outset, startsWith_placeText, if_pos rfl, stepsOf_placeText named, ← List.append_nil place]
  refine (leads_names_iff named.not_mem_up fun start begins _ => straight start begins).mpr ?_
  rw [List.append_nil]
  exact .arrived 0 place

theorem Kept.isStraight_of_long_link (kept : tree.Kept) {target : Text}
    (there : tree.node? place = some (.link target))
    (long : maxPath < (Utf8.encode (placeText place)).length) :
    IsStraight tree.linkAt? place := by
  intro start begins
  by_cases same : start = place
  · rw [same, linkAt?, there]
    exact if_neg (Nat.not_le_of_lt long)
  · rw [linkAt?, kept.directory there begins same]

theorem Kept.not_confinesExactly (kept : tree.Kept) {target : Text}
    (there : tree.node? place = some (.link target))
    (long : maxPath < (Utf8.encode (placeText place)).length) : ¬ tree.ConfinesExactly := by
  intro exactly
  have named := kept.isNamed there
  have plain := nul_not_mem_placeText named
  have filled : allBlank (placeText place) = false := by
    have slash : isBlank '/' = false := by decide
    simp [placeText, Path.toText, allBlank, slash]
  have rootPlace : IsRealPlace tree.linkAt? tree.here ['/'] [] := ⟨0, .arrived 0 []⟩
  have accepted : tree.confine (placeText place) ['/'] = .ok place :=
    kept.confine_eq plain (by decide) filled rootPlace
      (isRealPlace_placeText named (kept.isStraight_of_long_link there long) [])
  obtain ⟨base, _, ⟨depth, way⟩, _⟩ :=
    (exactly _ _ _ plain (by decide) filled).mp accepted
  have begun : IsStraight tree.target? (outset base (placeText place)) := by
    rw [outset, startsWith_placeText, if_pos rfl]
    exact kept.isStraight (node?_nil tree)
  have straight := way.isStraight target?_root begun place List.prefix_rfl
  rw [target?_eq_some.mpr there] at straight
  cases straight

theorem Kept.confinesExactly_iff (kept : tree.Kept) (acyclic : Acyclic tree.target?) :
    tree.ConfinesExactly ↔
      ∀ place target, tree.node? place = some (.link target) →
        (Utf8.encode (placeText place)).length ≤ maxPath := by
  constructor
  · intro exactly place target there
    by_contra long
    exact kept.not_confinesExactly there (Nat.lt_of_not_le long) exactly
  · intro short
    have visible : tree.linkAt? = tree.target? := by
      funext place
      cases there : tree.target? place with
      | none =>
        cases link : tree.linkAt? place with
        | none => rfl
        | some target => rw [← there, target?_of_linkAt? link]
      | some target =>
        rw [linkAt?_of_short (short place target (target?_eq_some.mp there)), there]
    intro path root place plain rooted filled
    rw [← visible] at acyclic ⊢
    exact kept.confine_eq_ok_iff acyclic plain rooted filled

theorem confinesExactly_of_crossing_links :
    let tree : FileTree := ⟨[['p']], [([['p']], .directory), ([['q']], .directory),
      ([['p'], ['l']], .link "../q".toList), ([['q'], ['m']], .link "/p".toList)], none⟩
    tree.Kept ∧ Acyclic tree.target? ∧ tree.ConfinesExactly := by
  intro tree
  have kept : tree.Kept := by constructor <;> decide
  have links : ∀ place target, tree.node? place = some (.link target) →
      place = [['p'], ['l']] ∧ target = "../q".toList ∨
        place = [['q'], ['m']] ∧ target = "/p".toList := by
    intro place target there
    have inner : place ≠ [] := by
      rintro rfl
      cases there
    simpa [tree] using mem_nodes inner there
  have acyclic : Acyclic tree.target? := by
    intro link target there
    rcases links link target (target?_eq_some.mp there) with ⟨rfl, rfl⟩ | ⟨rfl, rfl⟩
    · exact ⟨[['q']], 0, .up (.along (by decide) (by decide) (.arrived _ _))⟩
    · exact ⟨[['p']], 0, .along (by decide) (by decide) (.arrived _ _)⟩
  refine ⟨kept, acyclic, (kept.confinesExactly_iff acyclic).mpr fun place target there => ?_⟩
  rcases links place target there with ⟨rfl, _⟩ | ⟨rfl, _⟩ <;> decide +kernel

def nested (name : Text) : Nat → FileTree
  | 0 => ⟨[], [], none⟩
  | n + 1 => (nested name n).setNode (List.replicate (n + 1) name) .directory

theorem node?_nested (name : Text) (n : Nat) (place : Place) :
    (nested name n).node? place =
      if ∃ k ≤ n, place = List.replicate k name then some .directory else none := by
  induction n with
  | zero => by_cases root : place = [] <;> simp [nested, node?, root]
  | succ n ih =>
    rw [nested, node?_setNode (by simp), ih]
    by_cases last : place = List.replicate (n + 1) name
    · rw [if_pos last, if_pos ⟨n + 1, le_rfl, last⟩]
    · rw [if_neg last]
      refine if_congr ⟨?_, ?_⟩ rfl rfl
      · rintro ⟨k, bound, same⟩
        exact ⟨k, Nat.le_succ_of_le bound, same⟩
      · rintro ⟨k, bound, same⟩
        refine ⟨k, Nat.le_of_lt_succ (lt_of_le_of_ne bound ?_), same⟩
        rintro rfl
        exact last same

theorem kept_nested {name : Text} (entry : IsEntryName name) (n : Nat) :
    (nested name n).Kept := by
  induction n with
  | zero => constructor <;> simp [nested, node?]
  | succ n ih =>
    refine ih.setNode ⟨by simp, ?_⟩ ?_ ?_ (by simp [Node.target?])
    · rw [node?_nested, if_neg]
      rintro ⟨k, bound, same⟩
      have sameLength := congrArg List.length same
      simp at sameLength
      omega
    · exact fun other member => List.eq_of_mem_replicate member ▸ entry
    · rw [node?_nested, if_pos ⟨n, le_rfl, by simp⟩]

/-- A link at a place whose text is too long is not followed, and leads out of the root. -/
theorem confine_accepts_long_link :
    let name : Text := List.replicate 255 'd'
    let deep : Place := List.replicate 16 name ++ [['l']]
    let tree := (nested name 16).setNode deep (.link "/u".toList)
    tree.Kept ∧ Acyclic tree.target? ∧
      tree.confine (placeText deep) (placeText [name]) = .ok deep ∧
      IsRealPlace tree.target? tree.here (placeText [name]) [name] ∧
      IsRealPlace tree.target? [name] (placeText deep) [['u']] ∧ ¬ [name] <+: [['u']] ∧
      ¬ tree.ConfinesExactly := by
  intro name deep tree
  have entry : IsEntryName name := by decide
  have other : ['l'] ≠ name := by decide
  have apart : ¬ [name] <+: [['u']] := by decide
  have long : maxPath < (Utf8.encode (placeText deep)).length := by decide +kernel
  clear_value name
  have parent : (nested name 16).node? (List.replicate 16 name) = some .directory := by
    rw [node?_nested, if_pos ⟨16, le_rfl, rfl⟩]
  have free : (nested name 16).IsFree deep := by
    refine ⟨by simp [deep], ?_⟩
    rw [node?_nested, if_neg]
    rintro ⟨k, _, same⟩
    have last : ['l'] ∈ deep := List.mem_append_right _ List.mem_cons_self
    exact other (List.eq_of_mem_replicate (same ▸ last))
  have named : IsNamed deep := IsNamed.child
    (fun _ member => List.eq_of_mem_replicate member ▸ entry) (by decide)
  have kept : tree.Kept := (kept_nested entry 16).setNode free named
    (by rw [List.dropLast_concat]; exact parent) (by decide)
  have there : tree.node? deep = some (.link "/u".toList) := by
    rw [node?_setNode free.1, if_pos rfl]
  have unlinked : ∀ place, place ≠ deep → tree.target? place = none := by
    intro place apart
    rw [target?, node?_setNode free.1, if_neg apart, node?_nested]
    split <;> rfl
  have directory : tree.node? [name] = some .directory :=
    kept.directory there ⟨List.replicate 15 name ++ [['l']], rfl⟩ (by simp [deep])
  have leadsOut : Leads tree.target? 0 [] (Path.stepsOf "/u".toList) [['u']] :=
    .along (by decide) (unlinked _ (by simp [deep])) (.arrived _ _)
  have acyclic : Acyclic tree.target? := by
    intro link target follows
    by_cases same : link = deep
    · obtain rfl := Option.some.inj (follows.symm.trans (same ▸ target?_eq_some.mpr there))
      exact ⟨[['u']], 0, leadsOut⟩
    · rw [unlinked link same] at follows
      cases follows
  have straight : IsStraight tree.target? [name] := kept.isStraight directory
  refine ⟨kept, acyclic, ?_, isRealPlace_placeText (kept.isNamed directory) straight _, ?_, apart,
    kept.not_confinesExactly there long⟩
  · have inside : [name] <+: deep := ⟨List.replicate 15 name ++ [['l']], rfl⟩
    rw [kept.confine_eq (nul_not_mem_placeText named)
        (nul_not_mem_placeText (kept.isNamed directory)) ?_
        (isRealPlace_placeText (kept.isNamed directory) (isStraight_linkAt? straight) _)
        (isRealPlace_placeText named (kept.isStraight_of_long_link there long) _),
      if_pos (List.isPrefixOf_iff_prefix.mpr inside)]
    simp [placeText, Path.toText, allBlank, show isBlank '/' = false by decide]
  · refine ⟨1, ?_⟩
    rw [outset, startsWith_placeText, if_pos rfl, stepsOf_placeText named]
    refine (leads_names_iff ?_ fun start begins _ => ?_).mpr
      (.through (by decide) (target?_eq_some.mpr there) leadsOut (.arrived _ _))
    · exact (named.of_isPrefix (List.prefix_append _ _)).not_mem_up
    · refine unlinked start ?_
      rintro rfl
      have shorter := begins.length_le
      simp [deep] at shorter

end

end FileTree

end TemplateTypes
