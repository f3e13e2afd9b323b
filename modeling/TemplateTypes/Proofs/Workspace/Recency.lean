import Mathlib.Data.List.Induction
import Mathlib.Data.List.Perm.Subperm
import TemplateTypes.Proofs.Workspace.Runs

namespace TemplateTypes.WorkspaceCache

open Text

/-- The root of the workspace that a call uses. A file that is missing has none. -/
def Call.accessed? (limits : WorkspaceLimits) (call : Call) : Option Text :=
  match call.operation with
  | .workspace path => some (Workspace.rootOf call.files limits.markers path).toText
  | .attach path =>
    if call.files.isFile (placeOf call.files path) then
      some (Workspace.rootOf call.files limits.markers (placeOf call.files path)).toText
    else none
  | _ => none

def Call.evicts (call : Call) (root : Text) : Bool :=
  match call.operation with
  | .evict named => placeOf call.files named == root
  | .evictAll => true
  | _ => false

def lastUse? (limits : WorkspaceLimits) (root : Text) (calls : List Call) : Option Int :=
  calls.foldl (fun use call =>
    if call.evicts root then none
    else if call.accessed? limits = some root then some call.now
    else use) none

variable {limits : WorkspaceLimits} {call : Call} {root : Text}

theorem Call.evicts_of_accessed (accessed : call.accessed? limits = some root) (other : Text) :
    call.evicts other = false := by
  obtain ⟨files, now, operation⟩ := call
  cases operation with
  | workspace => rfl
  | attach => rfl
  | evict => cases accessed
  | evictAll => cases accessed

theorem lastUse?_append (limits : WorkspaceLimits) (root : Text) (calls : List Call)
    (call : Call) : lastUse? limits root (calls ++ [call]) =
      if call.evicts root then none
      else if call.accessed? limits = some root then some call.now
      else lastUse? limits root calls := by
  rw [lastUse?, List.foldl_append]
  rfl

theorem exists_call_of_lastUse? {calls : List Call} {used : Int}
    (found : lastUse? limits root calls = some used) :
    ∃ call ∈ calls, call.accessed? limits = some root ∧ call.now = used := by
  induction calls using List.reverseRecOn with
  | nil => cases found
  | append_singleton calls call ih =>
    rw [lastUse?_append] at found
    split at found
    · cases found
    · split at found
      · rename_i accessed
        exact ⟨call, by simp, accessed, Option.some.inj found⟩
      · obtain ⟨earlier, member, accessed, time⟩ := ih found
        exact ⟨earlier, List.mem_append_left _ member, accessed, time⟩

def uses (cache : WorkspaceCache) : List (Text × Int) :=
  cache.workspaces.map fun w => (w.root, w.lastAccessed)

def unexpired (limits : WorkspaceLimits) (now : Int) (uses : List (Text × Int)) :
    List (Text × Int) :=
  uses.filter fun use => now - use.2 ≤ limits.idleTime

theorem mem_unexpired {now : Int} {uses : List (Text × Int)} {use : Text × Int} :
    use ∈ unexpired limits now uses ↔ use ∈ uses ∧ now - use.2 ≤ limits.idleTime := by
  rw [unexpired, List.mem_filter, decide_eq_true_eq]

inductive Turnover (limits : WorkspaceLimits) (call : Call) (uses : List (Text × Int)) :
    List (Text × Int) → Prop
  | unused (nothing : call.accessed? limits = none) :
      Turnover limits call uses (uses.filter fun use => !call.evicts use.1)
  | again {root : Text} {after : List (Text × Int)} (accessed : call.accessed? limits = some root)
      (there : root ∈ uses.map Prod.fst)
      (renewed : ∀ use, use ∈ after ↔ use = (root, call.now) ∨ use ∈ uses ∧ use.1 ≠ root) :
      Turnover limits call uses after
  | first {root : Text} (accessed : call.accessed? limits = some root)
      (missing : root ∉ uses.map Prod.fst) :
      Turnover limits call uses (unexpired limits call.now uses ++ [(root, call.now)])
  | inPlaceOf {root : Text} {oldest : Text × Int} (accessed : call.accessed? limits = some root)
      (missing : root ∉ uses.map Prod.fst) (member : oldest ∈ unexpired limits call.now uses)
      (least : ∀ use ∈ unexpired limits call.now uses, oldest.2 ≤ use.2)
      (full : limits.maxWorkspaces.toNat ≤ (unexpired limits call.now uses).length) :
      Turnover limits call uses
        ((unexpired limits call.now uses).filter (·.1 != oldest.1) ++ [(root, call.now)])

section

variable {cache between : WorkspaceCache} {P : ParseEntry → Prop} {w other : Workspace}
  {ws : List Workspace} {files : FileTree} {now : Int} {path : Text}

theorem oldest?_le (found : oldest? ws = some w) :
    ∀ other ∈ ws, w.lastAccessed ≤ other.lastAccessed := by
  induction ws generalizing w with
  | nil => cases found
  | cons first more ih =>
    intro other member
    unfold oldest? at found
    split at found
    · rename_i nothing
      obtain rfl := eq_nil_of_oldest? nothing
      cases found
      obtain rfl := List.mem_singleton.mp member
      exact Int.le_refl _
    · rename_i behind later
      split at found
      · cases found
        rcases List.mem_cons.mp member with rfl | member
        · omega
        · exact ih later other member
      · cases found
        rcases List.mem_cons.mp member with rfl | member
        · exact Int.le_refl _
        · have least := ih later other member
          omega

theorem mem_put_iff (roots : (ws.map (·.root)).Nodup) :
    other ∈ put w ws ↔ other = w ∨ other ∈ ws ∧ other.root ≠ w.root := by
  induction ws with
  | nil => simp [put]
  | cons first more ih =>
    obtain ⟨alone, rest⟩ := List.nodup_cons.mp roots
    unfold put
    by_cases here : first.root = w.root
    · have others : other ∈ more → other.root ≠ w.root := by
        rintro member same
        exact alone (List.mem_map.mpr ⟨other, member, same.trans here.symm⟩)
      rw [if_pos (by simpa using here), List.mem_cons, List.mem_cons]
      constructor
      · rintro (same | member)
        · exact .inl same
        · exact .inr ⟨.inr member, others member⟩
      · rintro (same | ⟨rfl | member, differs⟩)
        · exact .inl same
        · exact absurd here differs
        · exact .inr member
    · rw [if_neg (by simpa using here), List.mem_cons, List.mem_cons, ih rest]
      constructor
      · rintro (rfl | same | ⟨member, differs⟩)
        · exact .inr ⟨.inl rfl, here⟩
        · exact .inl same
        · exact .inr ⟨.inr member, differs⟩
      · rintro (same | ⟨same | member, differs⟩)
        · exact .inr (.inl same)
        · exact .inl same
        · exact .inr (.inr ⟨member, differs⟩)

theorem mem_uses {use : Text × Int} :
    use ∈ cache.uses ↔ ∃ w ∈ cache.workspaces, (w.root, w.lastAccessed) = use := List.mem_map

theorem map_fst_uses (cache : WorkspaceCache) :
    cache.uses.map Prod.fst = cache.workspaces.map (·.root) := by
  rw [uses, List.map_map]
  rfl

theorem uses_dropIdle (cache : WorkspaceCache) (now : Int) :
    (cache.dropIdle now).uses = unexpired cache.limits now cache.uses := by
  rw [uses, uses, unexpired, List.filter_map]
  rfl

theorem uses_drop (cache : WorkspaceCache) (root : Text) :
    (cache.drop root).uses = cache.uses.filter (·.1 != root) := by
  rw [uses, uses, List.filter_map]
  rfl

theorem missing_iff : cache.workspace? root = none ↔ root ∉ cache.uses.map Prod.fst := by
  rw [map_fst_uses, workspace?, find?_key_none]
  simp

theorem uses_store (roots : (cache.workspaces.map (·.root)).Nodup) (w : Workspace)
    (use : Text × Int) : use ∈ (cache.store w).uses ↔
      use = (w.root, w.lastAccessed) ∨ use ∈ cache.uses ∧ use.1 ≠ w.root := by
  rw [mem_uses]
  constructor
  · rintro ⟨other, member, rfl⟩
    rcases (mem_put_iff roots).mp member with rfl | ⟨member, differs⟩
    · exact .inl rfl
    · exact .inr ⟨mem_uses.mpr ⟨other, member, rfl⟩, differs⟩
  · rintro (rfl | ⟨member, differs⟩)
    · exact ⟨w, (mem_put_iff roots).mpr (.inl rfl), rfl⟩
    · obtain ⟨other, inCache, rfl⟩ := mem_uses.mp member
      exact ⟨other, (mem_put_iff roots).mpr (.inr ⟨inCache, differs⟩), rfl⟩

theorem uses_store_new (new : cache.workspace? w.root = none) :
    (cache.store w).uses = cache.uses ++ [(w.root, w.lastAccessed)] := by
  rw [store, uses, put_of_new new, List.map_append]
  rfl

theorem makeRoom_cases (few : cache.workspaces.length ≤ cache.limits.maxWorkspaces.toNat)
    (some : 1 ≤ cache.limits.maxWorkspaces) :
    cache.makeRoom = (.ok (), cache) ∨
      ∃ w, oldest? cache.workspaces = .some w ∧
        cache.limits.maxWorkspaces.toNat ≤ cache.workspaces.length ∧
        cache.makeRoom = (.ok (), cache.drop w.root) := by
  have usable : ¬ cache.limits.maxWorkspaces ≤ 0 := by omega
  rw [makeRoom, if_neg usable]
  rcases Nat.lt_or_ge cache.workspaces.length cache.limits.maxWorkspaces.toNat with room | full
  · have none : cache.workspaces.length + 1 - cache.limits.maxWorkspaces.toNat = 0 := by omega
    rw [none]
    exact .inl rfl
  · have one : cache.workspaces.length + 1 - cache.limits.maxWorkspaces.toNat = 1 := by omega
    rw [one]
    cases found : oldest? cache.workspaces with
    | none =>
      rw [eq_nil_of_oldest? found, List.length_nil] at full
      omega
    | some w =>
      refine .inr ⟨w, rfl, full, ?_⟩
      rw [dropOldest, found]
      rfl

theorem workspaceOf_turnover (coherent : cache.Coherent P) (some : 1 ≤ cache.limits.maxWorkspaces)
    (accessed : call.accessed? cache.limits = .some (cache.rootOf files path).toText) :
    Turnover cache.limits call cache.uses (cache.workspaceOf files call.now path).2.uses := by
  unfold workspaceOf
  dsimp only
  split
  · rename_i old there
    obtain ⟨member, root⟩ := mem_of_find?_key there
    apply Turnover.again accessed
    · rw [map_fst_uses]
      exact List.mem_map.mpr ⟨old, member, root⟩
    · intro use
      rw [uses_store coherent.roots, root]
  · rename_i missing
    have absent := missing_iff.mp missing
    have fresh : (cache.dropIdle call.now).workspace? (cache.rootOf files path).toText = none := by
      rw [missing_iff, uses_dropIdle]
      exact fun there => absent ((List.filter_sublist.map _).subset there)
    have few : (cache.dropIdle call.now).workspaces.length ≤
        (cache.dropIdle call.now).limits.maxWorkspaces.toNat :=
      Nat.le_trans (List.length_filter_le _ _) coherent.few
    have cases := makeRoom_cases few some
    rcases cases with room | ⟨w, found, full, room⟩
    · rw [room]
      show Turnover cache.limits call cache.uses
        ((cache.dropIdle call.now).store (cache.newWorkspace files call.now _)).uses
      rw [uses_store_new fresh, uses_dropIdle]
      exact .first accessed absent
    · have lengths : (cache.dropIdle call.now).workspaces.length =
          (unexpired cache.limits call.now cache.uses).length := by
        rw [← uses_dropIdle, uses, List.length_map]
      have left : ((cache.dropIdle call.now).drop w.root).workspace?
          (cache.rootOf files path).toText = none := by
        rw [missing_iff, uses_drop]
        exact fun there => missing_iff.mp fresh ((List.filter_sublist.map _).subset there)
      rw [room]
      show Turnover cache.limits call cache.uses
        (((cache.dropIdle call.now).drop w.root).store (cache.newWorkspace files call.now _)).uses
      rw [uses_store_new left, uses_drop, uses_dropIdle]
      refine .inPlaceOf accessed absent (?_ : (w.root, w.lastAccessed) ∈ _) ?_ ?_
      · rw [← uses_dropIdle]
        exact mem_uses.mpr ⟨w, mem_of_oldest? found, rfl⟩
      · intro use member
        rw [← uses_dropIdle] at member
        obtain ⟨other, inCache, rfl⟩ := mem_uses.mp member
        exact oldest?_le found other inCache
      · rw [← lengths]
        exact full

theorem attach_uses (coherent : cache.Coherent P) :
    (cache.attach files now path).2.uses =
      if files.isFile (placeOf files path) then
        (cache.workspaceOf files now (placeOf files path)).2.uses
      else cache.uses := by
  cases isFile : files.isFile (placeOf files path) with
  | false => rw [attach_of_missing isFile, if_neg (by simp)]
  | true =>
    have opens := cache.workspaceOf_opens files now (placeOf files path)
    rw [if_pos rfl]
    cases opened : cache.workspaceOf files now (placeOf files path) with
    | mk result between =>
      rw [opened] at opens
      cases result with
      | error e => rw [attach_of_unopened isFile opened]
      | ok w =>
        obtain ⟨named, there⟩ := opens.workspace?
        have own := (opens.coherent coherent).each w (mem_of_find?_key there).1
        rw [opens.limits] at own
        obtain ⟨after, serial, attaches, stored⟩ :=
          attach_opened own.toPaired opens.limits isFile opened
        rw [stored]
        rw [← attaches.root] at there
        exact map_put (fun w => (w.root, w.lastAccessed)) there
          (by rw [attaches.root, attaches.lastAccessed])

theorem perform_turnover (coherent : cache.Coherent P) (some : 1 ≤ cache.limits.maxWorkspaces)
    (call : Call) : Turnover cache.limits call cache.uses (cache.perform call).uses := by
  obtain ⟨files, now, operation⟩ := call
  cases operation with
  | workspace path => exact workspaceOf_turnover coherent some rfl
  | attach path =>
    rw [perform, attach_uses coherent]
    by_cases isFile : files.isFile (placeOf files path) = true
    · rw [if_pos isFile]
      exact workspaceOf_turnover coherent some (if_pos isFile)
    · rw [if_neg isFile]
      have unused : Turnover cache.limits ⟨files, now, .attach path⟩ cache.uses _ :=
        .unused (if_neg isFile)
      rwa [List.filter_eq_self.mpr (by simp [Call.evicts])] at unused
  | evict named =>
    have kept : cache.uses.filter (fun use => !(placeOf files named == use.1)) =
        cache.uses.filter (·.1 != placeOf files named) := by
      congr 1
      funext use
      rw [bne, Bool.beq_comm]
    show Turnover _ _ _ (cache.drop (placeOf files named)).uses
    rw [uses_drop, ← kept]
    exact .unused rfl
  | evictAll =>
    have unused : Turnover cache.limits ⟨files, now, .evictAll⟩ cache.uses _ := .unused rfl
    rwa [List.filter_eq_nil_iff.mpr (by simp [Call.evicts])] at unused

end

/-- The cache has the last use of each root that it keeps, and every later use as well. -/
structure Remembers (limits : WorkspaceLimits) (calls : List Call) (uses : List (Text × Int)) :
    Prop where
  own : ∀ use ∈ uses, lastUse? limits use.1 calls = some use.2
  later : ∀ use ∈ uses, ∀ root used, lastUse? limits root calls = some used → use.2 < used →
    (root, used) ∈ uses

variable {calls : List Call} {uses after : List (Text × Int)}

/-- A use takes the place of an earlier one of its root; of the others the cache may forget any
    that are earlier than those it keeps. -/
theorem Remembers.renew (remembers : Remembers limits calls uses)
    (clock : ∀ earlier ∈ calls, earlier.now < call.now)
    (accessed : call.accessed? limits = some root) (renewed : (root, call.now) ∈ after)
    (kept : ∀ use ∈ after, use = (root, call.now) ∨ use ∈ uses ∧ use.1 ≠ root)
    (upward : ∀ use ∈ after, use ∈ uses → ∀ other ∈ uses, other.1 ≠ root → use.2 < other.2 →
      other ∈ after) :
    Remembers limits (calls ++ [call]) after := by
  have last : ∀ other, lastUse? limits other (calls ++ [call]) =
      if root = other then some call.now else lastUse? limits other calls := by
    intro other
    rw [lastUse?_append, call.evicts_of_accessed accessed, accessed]
    simp
  constructor
  · intro use member
    rw [last]
    rcases kept use member with rfl | ⟨earlier, differs⟩
    · rw [if_pos rfl]
    · rw [if_neg (Ne.symm differs)]
      exact remembers.own use earlier
  · intro use member other used found less
    rw [last] at found
    split at found
    · rename_i same
      cases found
      rw [← same]
      exact renewed
    · rename_i differs
      rcases kept use member with rfl | ⟨earlier, _⟩
      · obtain ⟨call', inCalls, _, rfl⟩ := exists_call_of_lastUse? found
        have before := clock call' inCalls
        omega
      · have there := remembers.later use earlier other used found less
        exact upward use member earlier _ there (Ne.symm differs) less

theorem Remembers.admit {kept : List (Text × Int)} (remembers : Remembers limits calls uses)
    (clock : ∀ earlier ∈ calls, earlier.now < call.now)
    (accessed : call.accessed? limits = some root) (missing : root ∉ uses.map Prod.fst)
    (fewer : kept ⊆ uses)
    (upward : ∀ use ∈ kept, ∀ other ∈ uses, use.2 < other.2 → other ∈ kept) :
    Remembers limits (calls ++ [call]) (kept ++ [(root, call.now)]) := by
  have others : ∀ use ∈ uses, use.1 ≠ root := by
    rintro use member rfl
    exact missing (List.mem_map_of_mem member)
  apply remembers.renew clock accessed (by simp)
  · intro use member
    rcases List.mem_append.mp member with member | member
    · exact .inr ⟨fewer member, others use (fewer member)⟩
    · exact .inl (List.mem_singleton.mp member)
  · intro use member earlier other inUses _ less
    rcases List.mem_append.mp member with member | member
    · exact List.mem_append_left _ (upward use member other inUses less)
    · rw [List.mem_singleton.mp member] at earlier
      exact absurd rfl (others _ earlier)

theorem Remembers.turnover (remembers : Remembers limits calls uses)
    (turnover : Turnover limits call uses after)
    (clock : ∀ earlier ∈ calls, earlier.now < call.now) :
    Remembers limits (calls ++ [call]) after := by
  cases turnover with
  | unused nothing =>
    have last : ∀ other, lastUse? limits other (calls ++ [call]) =
        if call.evicts other then none else lastUse? limits other calls := by
      intro other
      rw [lastUse?_append, nothing]
      simp
    constructor
    · intro use member
      obtain ⟨earlier, kept⟩ := List.mem_filter.mp member
      rw [last, if_neg (by simpa using kept)]
      exact remembers.own use earlier
    · intro use member other used found less
      rw [last] at found
      split at found
      · cases found
      · rename_i kept
        have there := remembers.later use (List.mem_filter.mp member).1 other used found less
        exact List.mem_filter.mpr ⟨there, by simpa using kept⟩
  | again accessed there renewed =>
    apply remembers.renew clock accessed ((renewed _).mpr (.inl rfl))
    · exact fun use member => (renewed use).mp member
    · exact fun _ _ _ other member differs _ => (renewed other).mpr (.inr ⟨member, differs⟩)
  | first accessed missing =>
    apply remembers.admit clock accessed missing List.filter_sublist.subset
    intro use member other inUses less
    have young := (mem_unexpired.mp member).2
    exact mem_unexpired.mpr ⟨inUses, by omega⟩
  | @inPlaceOf root oldest accessed missing member least full =>
    have fewer : (unexpired limits call.now uses).filter (·.1 != oldest.1) ⊆ uses :=
      (List.filter_sublist.trans List.filter_sublist).subset
    apply remembers.admit clock accessed missing fewer
    intro use kept other inUses less
    obtain ⟨young, _⟩ := List.mem_filter.mp kept
    have older := least use young
    -- What is used after a kept root is not the oldest one: that has one last use only.
    have differs : other.1 ≠ oldest.1 := by
      intro same
      have one := remembers.own other inUses
      have two := remembers.own oldest (mem_unexpired.mp member).1
      rw [same, two] at one
      have time := Option.some.inj one
      omega
    have bound := (mem_unexpired.mp young).2
    exact List.mem_filter.mpr ⟨mem_unexpired.mpr ⟨inUses, by omega⟩, by simpa using differs⟩

theorem run_append (limits : WorkspaceLimits) (calls : List Call) (call : Call) :
    run limits (calls ++ [call]) = (run limits calls).perform call :=
  List.foldl_append

theorem run_turnover (someWorkspace : 1 ≤ limits.maxWorkspaces) (calls : List Call)
    (call : Call) :
    Turnover limits call (run limits calls).uses (run limits (calls ++ [call])).uses := by
  have turnover := perform_turnover (coherent_run limits calls)
    (by rwa [run_limits]) call
  rwa [run_limits, ← run_append] at turnover

theorem remembers_run (someWorkspace : 1 ≤ limits.maxWorkspaces) {calls : List Call}
    (clock : (calls.map (·.now)).Pairwise (· < ·)) :
    Remembers limits calls (run limits calls).uses := by
  induction calls using List.reverseRecOn with
  | nil => exact ⟨by simp [run, uses, empty], by simp [run, uses, empty]⟩
  | append_singleton calls call ih =>
    rw [List.map_append, List.pairwise_append] at clock
    obtain ⟨clock, _, last⟩ := clock
    apply (ih clock).turnover (run_turnover someWorkspace calls call)
    intro earlier member
    exact last _ (List.mem_map_of_mem member) call.now (by simp)

theorem nodup_uses_run (limits : WorkspaceLimits) (calls : List Call) :
    ((run limits calls).uses.map Prod.fst).Nodup := by
  rw [map_fst_uses]
  exact (coherent_run limits calls).roots

/-- Why the workspace of a root that a call used may be closed after the calls that follow. -/
inductive Displaced (limits : WorkspaceLimits) (before : List Call) (call : Call) (root : Text)
    (after : List Call) : Prop
  | evicted {later : Call} (member : later ∈ after) (evicts : later.evicts root = true)
  | expired {between rest : List Call} {later : Call} {other : Text}
      (split : after = between ++ later :: rest) (accessed : later.accessed? limits = some other)
      (missing : (run limits (before ++ call :: between)).workspace? other = none)
      (idle : limits.idleTime < later.now - call.now)
  | crowded {roots : List Text} (distinct : roots.Nodup)
      (many : limits.maxWorkspaces ≤ roots.length) (others : root ∉ roots)
      (accessed : ∀ other ∈ roots, ∃ later ∈ after, later.accessed? limits = some other)

theorem Displaced.append {before after : List Call}
    (displaced : Displaced limits before call root after) (later : Call) :
    Displaced limits before call root (after ++ [later]) := by
  cases displaced with
  | evicted member evicts => exact .evicted (List.mem_append_left _ member) evicts
  | @expired between rest earlier _ split accessed missing idle =>
    have longer : after ++ [later] = between ++ earlier :: (rest ++ [later]) := by simp [split]
    exact .expired longer accessed missing idle
  | crowded distinct many others accessed =>
    apply Displaced.crowded distinct many others
    intro other member
    obtain ⟨earlier, inAfter, used⟩ := accessed other member
    exact ⟨earlier, List.mem_append_left _ inAfter, used⟩

theorem exists_later_use {before after : List Call} {other : Text} {used : Int}
    (clock : ((before ++ call :: after).map (·.now)).Pairwise (· < ·))
    (accessed : call.accessed? limits = some root) (differs : other ≠ root)
    (found : lastUse? limits other (before ++ call :: after) = some used)
    (late : call.now ≤ used) : ∃ later ∈ after, later.accessed? limits = some other := by
  obtain ⟨later, member, uses, rfl⟩ := exists_call_of_lastUse? found
  rcases List.mem_append.mp member with earlier | member
  · rw [List.map_append, List.pairwise_append] at clock
    have less := clock.2.2 _ (List.mem_map_of_mem earlier) call.now (by simp)
    omega
  · rcases List.mem_cons.mp member with rfl | member
    · rw [accessed] at uses
      exact absurd (Option.some.inj uses).symm differs
    · exact ⟨later, member, uses⟩

theorem displaced_of_least {before after : List Call} {later : Call} {new : Text}
    {uses young : List (Text × Int)} (remembers : Remembers limits (before ++ call :: after) uses)
    (distinct : (uses.map Prod.fst).Nodup) (fewer : young.Sublist uses)
    (clock : ((before ++ call :: after).map (·.now)).Pairwise (· < ·))
    (accessed : call.accessed? limits = some root) (member : root ∈ young.map Prod.fst)
    (least : ∀ use ∈ young, call.now ≤ use.2) (full : limits.maxWorkspaces.toNat ≤ young.length)
    (used : later.accessed? limits = some new) (missing : new ∉ uses.map Prod.fst) :
    Displaced limits before call root (after ++ [later]) := by
  have once : (young.map Prod.fst).Nodup := distinct.sublist (fewer.map _)
  have differs : root ≠ new := by
    rintro rfl
    exact missing ((fewer.map _).subset member)
  have absent : new ∉ (young.map Prod.fst).erase root := fun among =>
    missing ((fewer.map _).subset (List.mem_of_mem_erase among))
  refine .crowded (?_ : (new :: (young.map Prod.fst).erase root).Nodup) ?_ ?_ ?_
  · exact List.nodup_cons.mpr ⟨absent, once.erase root⟩
  · have length := List.length_erase_of_mem member
    have some := List.length_pos_of_mem member
    rw [List.length_map] at length some
    rw [List.length_cons, length]
    omega
  · rw [List.mem_cons, not_or]
    exact ⟨differs, once.not_mem_erase⟩
  · intro other among
    rcases List.mem_cons.mp among with rfl | among
    · exact ⟨later, by simp, used⟩
    · obtain ⟨⟨_, time⟩, inYoung, rfl⟩ := List.mem_map.mp (List.mem_of_mem_erase among)
      have otherRoot := fun same : _ = root => once.not_mem_erase (same ▸ among)
      obtain ⟨earlier, inAfter, uses⟩ := exists_later_use clock accessed otherRoot
        (remembers.own _ (fewer.subset inYoung)) (least _ inYoung)
      exact ⟨earlier, List.mem_append_left _ inAfter, uses⟩

theorem kept_or_displaced (someWorkspace : 1 ≤ limits.maxWorkspaces) {before after : List Call}
    {later : Call} (clock : ((before ++ call :: after).map (·.now)).Pairwise (· < ·))
    (accessed : call.accessed? limits = some root) (other : later.accessed? limits ≠ some root)
    (kept : (root, call.now) ∈ (run limits (before ++ call :: after)).uses) :
    (root, call.now) ∈ (run limits (before ++ call :: (after ++ [later]))).uses ∨
      Displaced limits before call root (after ++ [later]) := by
  have remembers := remembers_run someWorkspace clock
  have distinct := nodup_uses_run limits (before ++ call :: after)
  have turnover := run_turnover someWorkspace (before ++ call :: after) later
  rw [List.append_assoc, List.cons_append] at turnover
  -- A use that is too old goes as soon as a root is missing.
  have outdated : ∀ {new}, later.accessed? limits = some new →
      new ∉ (run limits (before ++ call :: after)).uses.map Prod.fst →
      ¬ later.now - call.now ≤ limits.idleTime →
      Displaced limits before call root (after ++ [later]) := by
    intro new used missing old
    have split : after ++ [later] = after ++ later :: [] := rfl
    exact .expired split used (missing_iff.mpr missing) (Int.not_le.mp old)
  generalize (run limits (before ++ call :: (after ++ [later]))).uses = next at turnover ⊢
  cases turnover with
  | unused nothing =>
    cases evicts : later.evicts root with
    | true => exact .inr (.evicted (by simp) evicts)
    | false => exact .inl (List.mem_filter.mpr ⟨kept, by simp [evicts]⟩)
  | again used there renewed =>
    have differs : root ≠ _ := fun same => other (same ▸ used)
    exact .inl ((renewed _).mpr (.inr ⟨kept, differs⟩))
  | first used missing =>
    by_cases young : later.now - call.now ≤ limits.idleTime
    · exact .inl (List.mem_append_left _ (mem_unexpired.mpr ⟨kept, young⟩))
    · exact .inr (outdated used missing young)
  | @inPlaceOf _ oldest used missing member least full =>
    by_cases young : later.now - call.now ≤ limits.idleTime
    · have inYoung := mem_unexpired.mpr ⟨kept, young⟩
      by_cases same : root = oldest.1
      · have time : oldest.2 = call.now := by
          have one := remembers.own oldest (mem_unexpired.mp member).1
          rw [← same, remembers.own _ kept] at one
          exact (Option.some.inj one).symm
        rw [time] at least
        exact .inr (displaced_of_least remembers distinct List.filter_sublist clock accessed
          (List.mem_map_of_mem inYoung) least full used missing)
      · exact .inl (List.mem_append_left _ (List.mem_filter.mpr ⟨inYoung, by simpa using same⟩))
    · exact .inr (outdated used missing young)

theorem Turnover.mem_of_accessed {uses after : List (Text × Int)}
    (turnover : Turnover limits call uses after) (accessed : call.accessed? limits = some root) :
    (root, call.now) ∈ after := by
  cases turnover with
  | unused nothing =>
    rw [accessed] at nothing
    cases nothing
  | again used _ renewed =>
    rw [accessed] at used
    cases used
    exact (renewed _).mpr (.inl rfl)
  | first used | inPlaceOf used =>
    rw [accessed] at used
    cases used
    simp

theorem run_keeps_or_displaces (someWorkspace : 1 ≤ limits.maxWorkspaces)
    {before after : List Call} (clock : ((before ++ call :: after).map (·.now)).Pairwise (· < ·))
    (accessed : call.accessed? limits = some root)
    (others : ∀ later ∈ after, later.accessed? limits ≠ some root) :
    (root, call.now) ∈ (run limits (before ++ call :: after)).uses ∨
      Displaced limits before call root after := by
  induction after using List.reverseRecOn with
  | nil => exact .inl ((run_turnover someWorkspace before call).mem_of_accessed accessed)
  | append_singleton after later ih =>
    have part : (before ++ call :: after).Sublist (before ++ call :: (after ++ [later])) := by
      simp
    have earlier := clock.sublist (part.map _)
    rcases ih earlier fun c member => others c (List.mem_append_left _ member) with kept | displaced
    · exact kept_or_displaced someWorkspace earlier accessed (others later (by simp)) kept
    · exact .inr (displaced.append later)

/-- At times that go up, the workspaces that are open are among those used last, as many as the
    limit allows, of all that have not been evicted by name since. One that has been used is closed
    only if it was evicted, was idle for too long when another was opened, or gave way to as many
    others as the limit allows. -/
theorem run_least_recently_used (limits : WorkspaceLimits)
    (someWorkspace : 1 ≤ limits.maxWorkspaces) (calls : List Call)
    (clock : (calls.map (·.now)).Pairwise (· < ·)) :
    (∀ w ∈ (run limits calls).workspaces, ∃ used, lastUse? limits w.root calls = some used ∧
      ∀ roots : List Text, roots.Nodup →
        (∀ root ∈ roots, ∃ later, lastUse? limits root calls = some later ∧ used < later) →
        roots.length < limits.maxWorkspaces) ∧
    ∀ before call after root, calls = before ++ call :: after →
      call.accessed? limits = some root →
      (∀ later ∈ after, later.accessed? limits ≠ some root) →
      (run limits calls).workspace? root = none → Displaced limits before call root after := by
  have remembers := remembers_run someWorkspace clock
  constructor
  · intro w member
    have kept : (w.root, w.lastAccessed) ∈ (run limits calls).uses := mem_uses.mpr ⟨w, member, rfl⟩
    refine ⟨w.lastAccessed, remembers.own _ kept, ?_⟩
    intro roots distinct later
    have there : w.root :: roots ⊆ (run limits calls).uses.map Prod.fst := by
      intro root member
      rcases List.mem_cons.mp member with rfl | member
      · exact List.mem_map_of_mem kept
      · obtain ⟨used, found, less⟩ := later root member
        exact List.mem_map_of_mem (remembers.later _ kept root used found less)
    have alone : w.root ∉ roots := by
      intro among
      obtain ⟨used, found, less⟩ := later w.root among
      rw [remembers.own _ kept] at found
      cases found
      omega
    have bound := ((List.nodup_cons.mpr ⟨alone, distinct⟩).subperm there).length_le
    have few := (coherent_run limits calls).few
    rw [run_limits] at few
    rw [List.length_map, uses, List.length_map, List.length_cons] at bound
    omega
  · rintro before call after root rfl accessed others missing
    rcases run_keeps_or_displaces someWorkspace clock accessed others with kept | displaced
    · exact absurd (List.mem_map_of_mem kept) (missing_iff.mp missing)
    · exact displaced

/-- There is room for two workspaces, and the third one takes the place of the one that was not used
    again. -/
theorem run_least_recently_used_third :
    let limits : WorkspaceLimits := ⟨2, 100, 300000, [['m']], [], Source.Module.ofText⟩
    let marked : List (Place × Node) := ['a', 'b', 'c'].flatMap fun c =>
      [([[c]], .directory), ([[c], ['m']], .file [] 1)]
    let visit (c : Char) (now : Int) : Call :=
      ⟨⟨[], marked, none⟩, now, .workspace ['/', c, '/', 'x']⟩
    let calls := [visit 'a' 0, visit 'b' 1, visit 'a' 2, visit 'c' 3]
    (run limits calls).workspaces.map (·.root) = [['/', 'a'], ['/', 'c']] ∧
      (∀ w ∈ (run limits calls).workspaces, ∃ used, lastUse? limits w.root calls = some used ∧
        ∀ roots : List Text, roots.Nodup →
          (∀ root ∈ roots, ∃ later, lastUse? limits root calls = some later ∧ used < later) →
          roots.length < limits.maxWorkspaces) ∧
      Displaced limits [visit 'a' 0] (visit 'b' 1) ['/', 'b'] [visit 'a' 2, visit 'c' 3] := by
  intro limits marked visit calls
  obtain ⟨recent, displaced⟩ :=
    run_least_recently_used limits (by decide) calls (by decide)
  refine ⟨by decide +kernel, recent, ?_⟩
  exact displaced [visit 'a' 0] (visit 'b' 1) [visit 'a' 2, visit 'c' 3] ['/', 'b'] rfl
    (by decide +kernel) (by decide +kernel) (by decide +kernel)

end TemplateTypes.WorkspaceCache
