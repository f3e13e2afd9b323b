import TemplateTypes.Proofs.Files.Places
import TemplateTypes.Proofs.Text.Utf8
import Mathlib.Data.List.Perm.Subperm
import Mathlib.Data.Nat.Find

namespace TemplateTypes

open Text

/-- The place from which a path's steps are taken that is seen from a directory. -/
def outset (seen : Place) (path : Text) : Place := if startsWith path ['/'] then [] else seen

/-- The place that steps lead to when links lead to what `follow` says; at most `depth` links are
    followed inside one another. -/
inductive Leads (follow : Place → Option Text) : (depth : Nat) → Place → List Text → Place → Prop
  | arrived (depth : Nat) (place : Place) : Leads follow depth place [] place
  | up {depth : Nat} {place goal : Place} {rest : List Text}
    (onward : Leads follow depth place.dropLast rest goal) :
    Leads follow depth place (Path.up :: rest) goal
  | along {depth : Nat} {place goal : Place} {step : Text} {rest : List Text}
    (named : step ≠ Path.up) (plain : follow (place ++ [step]) = none)
    (onward : Leads follow depth (place ++ [step]) rest goal) :
    Leads follow depth place (step :: rest) goal
  | through {depth : Nat} {place inner goal : Place} {step target : Text} {rest : List Text}
    (named : step ≠ Path.up) (link : follow (place ++ [step]) = some target)
    (entered : Leads follow depth (outset place target) (Path.stepsOf target) inner)
    (onward : Leads follow (depth + 1) inner rest goal) :
    Leads follow (depth + 1) place (step :: rest) goal

def IsRealPlace (follow : Place → Option Text) (seen : Place) (path : Text) (place : Place) : Prop :=
  ∃ depth, Leads follow depth (outset seen path) (Path.stepsOf path) place

def Acyclic (follow : Place → Option Text) : Prop :=
  ∀ link target, follow link = some target → ∃ place, IsRealPlace follow link.dropLast target place

/-- Following the link at a place comes to an end with so many others inside one another. -/
def Ends (follow : Place → Option Text) (depth : Nat) (link : Place) : Prop :=
  ∃ target goal, follow link = some target ∧
    Leads follow depth (outset link.dropLast target) (Path.stepsOf target) goal

def IsStraight (follow : Place → Option Text) (place : Place) : Prop :=
  ∀ start, start <+: place → follow start = none

section

variable {follow : Place → Option Text} {depth : Nat} {place goal : Place} {steps : List Text}

theorem Leads.mono (way : Leads follow depth place steps goal) {more : Nat} (least : depth ≤ more) :
    Leads follow more place steps goal := by
  induction way generalizing more with
  | arrived depth place => exact .arrived more place
  | up _ ih => exact .up (ih least)
  | along named plain _ ih => exact .along named plain (ih least)
  | through named link _ _ ihEntered ih =>
    cases more with
    | zero => exact absurd least (Nat.not_succ_le_zero _)
    | succ more => exact .through named link (ihEntered (Nat.le_of_succ_le_succ least)) (ih least)

theorem Leads.unique {other : Nat} {goal' : Place} (way : Leads follow depth place steps goal)
    (second : Leads follow other place steps goal') : goal = goal' := by
  induction way generalizing other goal' with
  | arrived => cases second; rfl
  | up _ ih =>
    cases second with
    | up onward => exact ih onward
    | along named => exact absurd rfl named
    | through named => exact absurd rfl named
  | along named plain _ ih =>
    cases second with
    | up => exact absurd rfl named
    | along _ _ onward => exact ih onward
    | through _ link => rw [plain] at link; cases link
  | through named link _ _ ihEntered ih =>
    cases second with
    | up => exact absurd rfl named
    | along _ plain => rw [plain] at link; cases link
    | through _ sameLink entered onward =>
      obtain rfl := Option.some.inj (link.symm.trans sameLink)
      obtain rfl := ihEntered entered
      exact ih onward

theorem leads_names_iff {names : Place} (named : Path.up ∉ names)
    (plain : ∀ start, start <+: names → start ≠ [] → follow (place ++ start) = none) :
    Leads follow depth place (names ++ steps) goal ↔
      Leads follow depth (place ++ names) steps goal := by
  induction names generalizing place with
  | nil => simp
  | cons name names ih =>
    have onward : name ≠ Path.up := fun same => named (same ▸ List.mem_cons_self)
    have first : follow (place ++ [name]) = none := plain [name] (by simp) (by simp)
    have later : Leads follow depth (place ++ [name]) (names ++ steps) goal ↔
        Leads follow depth (place ++ [name] ++ names) steps goal :=
      ih (fun member => named (List.mem_cons_of_mem _ member)) fun start begins _ => by
        simpa using plain (name :: start) (by simpa using begins) (by simp)
    rw [List.append_assoc, List.singleton_append] at later
    rw [← later, List.cons_append]
    constructor
    · rintro (_ | _ | ⟨_, _, way⟩ | ⟨_, link, _, _⟩)
      · exact absurd rfl onward
      · exact way
      · rw [first] at link
        cases link
    · exact .along onward first

theorem IsStraight.of_isPrefix (straight : IsStraight follow place) {other : Place}
    (begins : other <+: place) : IsStraight follow other :=
  fun start more => straight start (more.trans begins)

theorem IsStraight.outset (straight : IsStraight follow place) (root : follow [] = none)
    (path : Text) : IsStraight follow (outset place path) := by
  unfold TemplateTypes.outset
  split
  · intro start begins
    rw [List.prefix_nil.mp begins, root]
  · exact straight

theorem Leads.isStraight (way : Leads follow depth place steps goal) (root : follow [] = none)
    (straight : IsStraight follow place) : IsStraight follow goal := by
  induction way with
  | arrived => exact straight
  | up _ ih => exact ih (straight.of_isPrefix (List.dropLast_prefix _))
  | along _ plain _ ih =>
    refine ih fun start begins => ?_
    rcases List.prefix_concat_iff.mp begins with rfl | begins
    · exact plain
    · exact straight start begins
  | through _ _ _ _ ihEntered ih => exact ih (ihEntered (straight.outset root _))

theorem Acyclic.leads (acyclic : Acyclic follow) (place : Place) (steps : List Text) :
    ∃ depth goal, Leads follow depth place steps goal := by
  induction steps generalizing place with
  | nil => exact ⟨0, place, .arrived 0 place⟩
  | cons step rest ih =>
    by_cases named : step = Path.up
    · obtain ⟨depth, goal, way⟩ := ih place.dropLast
      exact ⟨depth, goal, named ▸ .up way⟩
    cases link : follow (place ++ [step]) with
    | none =>
      obtain ⟨depth, goal, way⟩ := ih (place ++ [step])
      exact ⟨depth, goal, .along named link way⟩
    | some target =>
      obtain ⟨inner, deep, entered⟩ := acyclic _ target link
      rw [List.dropLast_concat] at entered
      obtain ⟨depth, goal, way⟩ := ih inner
      exact ⟨max deep depth + 1, goal, .through named link (entered.mono (Nat.le_max_left _ _))
        (way.mono (Nat.le_succ_of_le (Nat.le_max_right _ _)))⟩

def AreSteps (steps : List Text) : Prop := ∀ step ∈ steps, step ≠ Path.up → IsEntryName step

theorem areSteps_stepsOf {path : Text} (plain : '\x00' ∉ path) : AreSteps (Path.stepsOf path) :=
  fun _ member onward => isEntryName_of_mem_stepsOf plain member onward

theorem IsNamed.areSteps (named : IsNamed place) : AreSteps place := fun step member _ =>
  named step member

theorem AreSteps.append {more : List Text} (first : AreSteps steps) (second : AreSteps more) :
    AreSteps (steps ++ more) := fun step member =>
  (List.mem_append.mp member).elim (first step) (second step)

theorem AreSteps.tail {step : Text} (named : AreSteps (step :: steps)) : AreSteps steps :=
  fun other member => named other (List.mem_cons_of_mem _ member)

theorem IsNamed.outset (named : IsNamed place) (path : Text) : IsNamed (outset place path) := by
  unfold TemplateTypes.outset
  split
  · exact isNamed_nil
  · exact named

end

namespace FileTree

variable {tree : FileTree} {place goal : Place}

theorem target?_of_linkAt? {target : Text} (link : tree.linkAt? place = some target) :
    tree.target? place = some target := by
  unfold linkAt? at link
  split at link
  · rename_i own there
    rw [target?_eq_some, there]
    split at link <;> simp_all
  · cases link

theorem Kept.linkAt?_plain (kept : tree.Kept) {target : Text}
    (link : tree.linkAt? place = some target) : '\x00' ∉ target := by
  have there := target?_eq_some.mp (target?_of_linkAt? link)
  have inner : place ≠ [] := by
    rintro rfl
    rw [node?_nil] at there
    cases there
  exact kept.targets _ (mem_nodes inner there) target rfl

/-- A place has names, and so have steps that were left over, where they do not go up. -/
def Real.IsNamed : Real → Prop
  | .place place => TemplateTypes.IsNamed place
  | .stuck steps => AreSteps steps

theorem resolveWith_isNamed (kept : tree.Kept) {enter : Place → Place → List Text → Real}
    (entered : ∀ link start steps, IsNamed link → IsNamed start → AreSteps steps →
      (enter link start steps).IsNamed)
    {steps : List Text} (named : IsNamed place) (stepped : AreSteps steps) :
    (resolveWith tree enter place steps).IsNamed := by
  induction steps generalizing place with
  | nil => exact named
  | cons step rest ih =>
    unfold resolveWith
    by_cases onward : step = Path.up
    · rw [if_pos (by simp [onward])]
      exact ih (named.of_isPrefix (List.dropLast_prefix _)) stepped.tail
    · rw [if_neg (by simp [onward])]
      have next : IsNamed (place ++ [step]) := named.child (stepped step List.mem_cons_self onward)
      dsimp only
      split
      · rename_i target link
        have inner := entered _ _ _ next (named.outset target)
          (areSteps_stepsOf (kept.linkAt?_plain link))
        unfold outset at inner
        split
        · rename_i reached came
          rw [came] at inner
          exact ih inner stepped.tail
        · rename_i left came
          rw [came] at inner
          exact inner.append stepped.tail
      · exact ih next stepped.tail

theorem resolveFrom_isNamed (kept : tree.Kept) (depth : Nat) {active : List Place}
    {steps : List Text} (named : IsNamed place) (stepped : AreSteps steps) :
    (resolveFrom tree depth active place steps).IsNamed := by
  induction depth generalizing active place steps with
  | zero =>
    have stuck : ∀ link start steps, IsNamed link → IsNamed start → AreSteps steps →
        (Real.stuck link).IsNamed := fun _ _ _ known _ _ => known.areSteps
    exact resolveWith_isNamed kept stuck named stepped
  | succ depth ih =>
    refine resolveWith_isNamed kept (fun link start steps known begun stepped => ?_) named stepped
    split
    · exact known.areSteps
    · exact ih begun stepped

theorem isNamed_foldl_pushStep {done steps : List Text} (named : IsNamed done)
    (stepped : AreSteps steps) : IsNamed (steps.foldl (Path.pushStep true) done) := by
  induction steps generalizing done with
  | nil => exact named
  | cons step rest ih =>
    refine ih ?_ stepped.tail
    unfold Path.pushStep
    by_cases onward : step = Path.up
    · rw [if_pos (by simp [onward])]
      cases done with
      | nil => exact isNamed_nil
      | cons last more =>
        have known : last ≠ Path.up := fun same => named.not_mem_up (same ▸ List.mem_cons_self)
        dsimp only
        rw [if_neg (by simp [known])]
        exact fun name member => named name (List.mem_cons_of_mem _ member)
    · rw [if_neg (by simp [onward])]
      exact List.forall_mem_cons.mpr ⟨stepped step List.mem_cons_self onward, named⟩

theorem isNamed_flatten {steps : List Text} (stepped : AreSteps steps) :
    IsNamed (Path.flatten ⟨['/'], steps⟩).steps := fun _ member =>
  isNamed_foldl_pushStep isNamed_nil stepped _ (List.mem_reverse.mp member)

def realPlace (tree : FileTree) (path : Text) : Place :=
  match resolveFrom tree (tree.nodes.length + 1) [] (outset tree.here path) (Path.stepsOf path) with
  | .place place => place
  | .stuck steps => (Path.flatten ⟨['/'], steps⟩).steps

theorem resolve_eq {path : Text} (plain : '\x00' ∉ path) :
    tree.resolve path = match tree.locate true (placeText (tree.realPlace path)) with
      | .error .linkLoop => .error (.loop (placeText (tree.realPlace path)))
      | _ => .ok (tree.realPlace path) := by
  have clean : path.elem '\x00' = false := by simpa using plain
  unfold resolve realPlace outset
  rw [clean]
  rfl

theorem resolve_eq_ok {path : Text} (resolved : tree.resolve path = .ok place) :
    '\x00' ∉ path ∧ tree.realPlace path = place := by
  have plain : '\x00' ∉ path := by
    intro inside
    rw [resolve, if_pos (by simpa using inside)] at resolved
    cases resolved
  rw [resolve_eq plain] at resolved
  refine ⟨plain, ?_⟩
  split at resolved
  · cases resolved
  · exact Except.ok.inj resolved

theorem Kept.isNamed_realPlace (kept : tree.Kept) {path : Text} (plain : '\x00' ∉ path) :
    IsNamed (tree.realPlace path) := by
  have named : (resolveFrom tree (tree.nodes.length + 1) [] _ _).IsNamed :=
    resolveFrom_isNamed kept _ ((kept.isNamed kept.here).outset path) (areSteps_stepsOf plain)
  unfold realPlace
  split
  · rename_i place came
    rw [came] at named
    exact named
  · rename_i steps came
    rw [came] at named
    exact isNamed_flatten named

theorem Kept.isNamed_of_resolve (kept : tree.Kept) {path : Text}
    (resolved : tree.resolve path = .ok place) : IsNamed place := by
  obtain ⟨plain, rfl⟩ := resolve_eq_ok resolved
  exact kept.isNamed_realPlace plain

theorem resolveWith_leads {enter : Place → Place → List Text → Real} {depth : Nat}
    {steps : List Text} (way : Leads tree.linkAt? depth place steps goal)
    (entered : ∀ seen step target inner deep, deep < depth →
      tree.linkAt? (seen ++ [step]) = some target →
      Leads tree.linkAt? deep (outset seen target) (Path.stepsOf target) inner →
      enter (seen ++ [step]) (outset seen target) (Path.stepsOf target) = .place inner) :
    resolveWith tree enter place steps = .place goal := by
  induction way with
  | arrived => rfl
  | up _ ih =>
    rw [resolveWith, if_pos (by simp)]
    exact ih entered
  | along named plain _ ih =>
    rw [resolveWith, if_neg (by simpa using named)]
    dsimp only
    rw [plain]
    exact ih entered
  | through named link inside _ _ ih =>
    have came := entered _ _ _ _ _ (Nat.lt_succ_self _) link inside
    unfold outset at came
    rw [resolveWith, if_neg (by simpa using named)]
    dsimp only
    rw [link]
    dsimp only
    rw [came]
    exact ih entered

/-- The links entered are distinct and lie in the tree, so that there is room for each of them; none
    comes to an end with as few others inside it as the way at hand. -/
theorem resolveFrom_leads {depth : Nat} {active : List Place} {deep : Nat} {steps : List Text}
    (way : Leads tree.linkAt? deep place steps goal)
    (later : ∀ link ∈ active, ∀ less < deep, ¬ Ends tree.linkAt? less link)
    (distinct : active.Nodup) (known : ∀ link ∈ active, link ∈ tree.nodes.map (·.1))
    (room : tree.nodes.length < active.length + depth) :
    resolveFrom tree depth active place steps = .place goal := by
  induction depth generalizing active deep place steps goal with
  | zero =>
    have fits := (List.subperm_of_subset distinct known).length_le
    rw [List.length_map] at fits
    omega
  | succ depth ih =>
    refine resolveWith_leads way fun seen step target inner less deeper link inside => ?_
    have ends : ∃ less, Ends tree.linkAt? less (seen ++ [step]) :=
      ⟨less, target, inner, link, by rwa [List.dropLast_concat]⟩
    have fresh : seen ++ [step] ∉ active := fun member =>
      later _ member less deeper ⟨target, inner, link, by rwa [List.dropLast_concat]⟩
    rw [if_neg (by simpa using fresh)]
    classical
    -- Of the numbers of links inside it the least one is taken, so that the link is not met again.
    obtain ⟨own, goal', sameLink, least⟩ := Nat.find_spec ends
    obtain rfl := Option.some.inj (link.symm.trans sameLink)
    rw [List.dropLast_concat] at least
    obtain rfl := inside.unique least
    have below : Nat.find ends ≤ less :=
      Nat.find_min' ends ⟨target, inner, link, by rwa [List.dropLast_concat]⟩
    refine ih least ?_ (List.nodup_cons.mpr ⟨fresh, distinct⟩) ?_ ?_
    · rintro other (_ | ⟨_, member⟩) fewer bound
      · exact Nat.find_min ends bound
      · exact later other member fewer (bound.trans_le (below.trans deeper.le))
    · rintro other (_ | ⟨_, member⟩)
      · have there := target?_eq_some.mp (target?_of_linkAt? link)
        exact List.mem_map_of_mem (mem_nodes (by simp) there)
      · exact known other member
    · rw [List.length_cons]
      omega

theorem realPlace_of_leads {depth : Nat} {path : Text}
    (way : Leads tree.linkAt? depth (outset tree.here path) (Path.stepsOf path) goal) :
    tree.realPlace path = goal := by
  have resolved : resolveFrom tree (tree.nodes.length + 1) [] _ _ = .place goal :=
    resolveFrom_leads way (fun _ member => by cases member) List.nodup_nil
      (fun _ member => by cases member) (by simp)
  unfold realPlace
  rw [resolved]

theorem walkWith_names {through : Bool} {enter : Place → List Text → Except Errno Destination}
    {names : Place} (named : IsNamed names)
    (plain : ∀ start, start <+: names → start ≠ [] → tree.target? (place ++ start) = none) :
    (∃ errno, walkWith tree through enter place names = .error errno ∧ errno ≠ .linkLoop) ∨
      ∃ ending, walkWith tree through enter place names = .ok ending ∧
        ending.place = place ++ names := by
  induction names generalizing place with
  | nil =>
    unfold walkWith
    cases tree.node? place with
    | none => exact .inl ⟨.noEntry, rfl, by decide⟩
    | some node => exact .inr ⟨_, rfl, by simp [Destination.place]⟩
  | cons name names ih =>
    obtain ⟨_, _, _, notDot, notUp⟩ := named name List.mem_cons_self
    have later := @ih (place ++ [name])
      (fun other member => named other (List.mem_cons_of_mem _ member)) fun start begins _ => by
        simpa using plain (name :: start) (by simpa using begins) (by simp)
    have first : tree.target? (place ++ [name]) = none := plain [name] (by simp) (by simp)
    rw [List.append_assoc, List.singleton_append] at later
    unfold walkWith
    split
    · rw [if_neg (by simpa using notDot), if_neg (by simpa using notUp)]
      split
      · exact .inl ⟨.nameTooLong, rfl, by decide⟩
      · dsimp only
        split
        · split
          · rename_i last
            exact .inr ⟨_, rfl, by simp [Destination.place, List.isEmpty_iff.mp last]⟩
          · exact .inl ⟨.noEntry, rfl, by decide⟩
        · rename_i target there
          rw [target?_eq_some.mpr there] at first
          cases first
        · exact later
    · exact .inl ⟨.notDirectory, rfl, by decide⟩
    · exact .inl ⟨.noEntry, rfl, by decide⟩

theorem locate_names {through : Bool} (named : IsNamed goal)
    (plain : IsStraight tree.target? goal) :
    (∃ errno, tree.locate through (placeText goal) = .error errno ∧ errno ≠ .linkLoop) ∨
      ∃ ending, tree.locate through (placeText goal) = .ok ending ∧ ending.place = goal := by
  unfold locate
  split
  · exact .inl ⟨.noEntry, rfl, by decide⟩
  · split
    · exact .inl ⟨.nameTooLong, rfl, by decide⟩
    · rw [startsWith_placeText, if_pos rfl, walkSteps_placeText named]
      split
      · rename_i root
        exact .inr ⟨.found [] .directory, by simp [maxLinks, walk, walkWith, dot, node?], root.symm⟩
      · exact walkWith_names named fun start begins _ => plain start begins

theorem placeText_isPrefix {start : Place} (begins : start <+: goal) :
    placeText start <+: placeText goal := by
  obtain ⟨more, rfl⟩ := begins
  cases start with
  | nil => simp [placeText, Path.toText, join]
  | cons first names =>
    simp [placeText, Path.toText, join_cons, List.flatMap_append, ← List.append_assoc]

theorem length_encode_placeText_le {start : Place} (begins : start <+: goal) :
    (Utf8.encode (placeText start)).length ≤ (Utf8.encode (placeText goal)).length := by
  obtain ⟨more, whole⟩ := placeText_isPrefix begins
  rw [← whole, Utf8.encode_append, List.length_append]
  exact Nat.le_add_right _ _

theorem linkAt?_root : tree.linkAt? [] = none := rfl

theorem target?_root : tree.target? [] = none := rfl

theorem linkAt?_of_short (short : (Utf8.encode (placeText place)).length ≤ maxPath) :
    tree.linkAt? place = tree.target? place := by
  unfold linkAt? target?
  cases tree.node? place with
  | none => rfl
  | some node => cases node <;> simp [Node.target?, short]

theorem Kept.isStraight (kept : tree.Kept) (directory : tree.node? place = some .directory) :
    IsStraight tree.target? place := by
  intro start begins
  by_cases same : start = place
  · rw [same, target?, directory]
    rfl
  · rw [target?, kept.directory directory begins same]
    rfl

theorem isStraight_linkAt? (straight : IsStraight tree.target? place) :
    IsStraight tree.linkAt? place := by
  intro start begins
  cases link : tree.linkAt? start with
  | none => rfl
  | some target => rw [← straight start begins, target?_of_linkAt? link]

theorem Kept.resolve_of_leads (kept : tree.Kept) {depth : Nat} {path : Text}
    (plain : '\x00' ∉ path)
    (way : Leads tree.linkAt? depth (outset tree.here path) (Path.stepsOf path) goal) :
    tree.resolve path = .ok goal := by
  have real := realPlace_of_leads way
  have named : IsNamed goal := real ▸ kept.isNamed_realPlace plain
  have straight : IsStraight tree.linkAt? goal := way.isStraight linkAt?_root
    ((isStraight_linkAt? (kept.isStraight kept.here)).outset linkAt?_root path)
  rw [resolve_eq plain, real]
  split
  · rename_i loops
    by_cases short : (Utf8.encode (placeText goal)).length ≤ maxPath
    · have unlinked : IsStraight tree.target? goal := fun start begins => by
        rw [← linkAt?_of_short ((length_encode_placeText_le begins).trans short)]
        exact straight start begins
      rcases @locate_names tree goal true named unlinked with
        ⟨errno, refused, other⟩ | ⟨ending, reached, _⟩
      · rw [loops] at refused
        exact absurd (Except.error.inj refused).symm other
      · rw [loops] at reached
        cases reached
    · have refused : tree.locate true (placeText goal) = .error .nameTooLong := by
        have filled : (placeText goal).isEmpty = false := by simp [placeText, Path.toText]
        rw [locate, filled]
        simp [Nat.lt_of_not_le short]
      rw [loops] at refused
      cases refused
  · rfl

end FileTree

end TemplateTypes
