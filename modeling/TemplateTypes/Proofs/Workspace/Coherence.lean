import TemplateTypes.Proofs.Workspace.Steps

namespace TemplateTypes

open Text

namespace ParseCache

theorem invalidate_all (cache : ParseCache) (handles : List FileHandle) :
    handles.foldl (fun parses handle => parses.invalidate handle.path) cache =
      cache.withEntries (cache.entries.filter fun entry =>
        handles.all fun handle => entry.path != handle.path) := by
  induction handles generalizing cache with
  | nil =>
    rw [List.foldl_nil, withEntries, List.filter_eq_self.mpr fun _ _ => List.all_nil]
  | cons handle more ih =>
    rw [List.foldl_cons, ih]
    simp only [withEntries, invalidate, List.filter_filter, List.all_cons]
    congr 1
    exact List.filter_congr fun entry _ => Bool.and_comm _ _

end ParseCache

namespace Workspace

variable {parser : SourceParser} {w after : Workspace} {P : ParseEntry → Prop} {maxFiles : Int}
  {files : FileTree} {now : Int} {serial : Nat} {path : Text}

theorem Paired.withEntries {entries : List ParseEntry} (paired : w.Paired P maxFiles)
    (fewer : entries.Sublist w.parses.entries) : (w.withEntries entries).Paired P maxFiles where
  limit := paired.limit
  size := paired.size
  fewParses := Nat.le_trans fewer.length_le paired.fewParses
  trackedOnce := paired.trackedOnce
  parsedOnce := paired.parsedOnce.sublist (fewer.map _)
  numbered := paired.numbered
  stamped := paired.stamped
  tracked := fun entry member => paired.tracked entry (fewer.subset member)
  known := fun entry member => paired.known entry (fewer.subset member)

theorem Paired.shed (paired : w.Paired P maxFiles) : w.shed.Paired P maxFiles := by
  have fewer : (w.tracked.drop (w.tracked.length / 2)).Sublist w.tracked := List.drop_sublist _ _
  unfold Workspace.shed
  dsimp only
  rw [ParseCache.invalidate_all]
  constructor
  case limit => exact paired.limit
  case size => exact paired.size
  case fewParses => exact Nat.le_trans (List.length_filter_le _ _) paired.fewParses
  case trackedOnce => exact paired.trackedOnce.sublist (fewer.map _)
  case parsedOnce => exact paired.parsedOnce.sublist (List.filter_sublist.map _)
  case numbered => exact fun handle member => paired.numbered handle (fewer.subset member)
  case stamped => exact paired.stamped.sublist (fewer.map _)
  case known => exact fun entry member => paired.known entry (List.mem_filter.mp member).1
  case tracked =>
    intro entry member
    obtain ⟨inParses, remains⟩ := List.mem_filter.mp member
    obtain ⟨handle, inTracked, named, same⟩ := paired.tracked entry inParses
    rw [← List.take_append_drop (w.tracked.length / 2) w.tracked] at inTracked
    rcases List.mem_append.mp inTracked with dropped | left
    -- The parse of a file that is shed would not be among those that remain.
    · have other := List.all_eq_true.mp remains handle dropped
      exact absurd named.symm (bne_iff_ne.mp other)
    · exact ⟨handle, left, named, same⟩

theorem Paired.parsed {others : List ParseEntry} {content : Bytes} {modified attachedAt : Int}
    (paired : w.Paired P maxFiles) (left : w.parses.Others path others) (room : 0 < maxFiles)
    (new : P ⟨path, .ofContent parser w.parses.parsed path content, modified⟩) :
    Paired P maxFiles
      { w with
        parses := (w.parses.withEntries others).takeIn parser path content modified
        tracked := w.tracked.filter (·.path != path) ++
          [⟨serial, path, .ofContent parser w.parses.parsed path content, attachedAt⟩] } := by
  have fewer : (w.tracked.filter (·.path != path)).Sublist w.tracked := List.filter_sublist
  have rest := paired.withEntries left.sublist
  have kept : ∀ n, (others.drop n).Sublist others := fun n => List.drop_sublist n others
  constructor
  case limit => exact paired.limit
  case size => exact paired.size
  case fewParses =>
    have bound := rest.fewParses
    have limit := paired.limit
    simp only [ParseCache.takeIn, ParseCache.withEntries, Workspace.withEntries,
      List.length_append, List.length_drop, List.length_singleton] at *
    omega
  case trackedOnce =>
    rw [List.map_append, List.nodup_append]
    refine ⟨paired.trackedOnce.sublist (fewer.map _), by simp, ?_⟩
    intro name inOthers own isOwn
    obtain ⟨handle, member, rfl⟩ := List.mem_map.mp inOthers
    have other : handle.path ≠ path := by simpa using (List.mem_filter.mp member).2
    have named : own = path := by simpa using isOwn
    exact named ▸ other
  case parsedOnce =>
    simp only [ParseCache.paths, ParseCache.takeIn, ParseCache.withEntries, List.map_append,
      List.nodup_append]
    refine ⟨rest.parsedOnce.sublist ((kept _).map _), by simp, ?_⟩
    intro name inOthers own isOwn
    obtain ⟨entry, member, rfl⟩ := List.mem_map.mp inOthers
    have other := left.absent entry ((kept _).subset member)
    have named : own = path := by simpa using isOwn
    exact named ▸ other
  case numbered =>
    intro handle member
    rcases List.mem_append.mp member with member | isOwn
    · exact Nat.lt_succ_of_lt (paired.numbered handle (fewer.subset member))
    · rw [List.mem_singleton.mp isOwn]
      exact Nat.lt_succ_self _
  case stamped =>
    rw [List.map_append, List.nodup_append]
    refine ⟨paired.stamped.sublist (fewer.map _), by simp, ?_⟩
    intro stamp inOthers own isOwn
    obtain ⟨handle, member, rfl⟩ := List.mem_map.mp inOthers
    -- Stamps are given out in ascending order.
    have older := paired.numbered handle (fewer.subset member)
    have newest : own = w.parses.parsed := by simpa [ParsedFile.ofContent] using isOwn
    omega
  case known =>
    intro entry member
    rcases List.mem_append.mp member with member | isOwn
    · exact rest.known entry ((kept _).subset member)
    · exact List.mem_singleton.mp isOwn ▸ new
  case tracked =>
    intro entry member
    rcases List.mem_append.mp member with member | isOwn
    · have inOthers := (kept _).subset member
      obtain ⟨handle, inTracked, named, same⟩ := rest.tracked entry inOthers
      have other : handle.path ≠ path := named ▸ left.absent entry inOthers
      refine ⟨handle, List.mem_append_left _ (List.mem_filter.mpr ⟨inTracked, ?_⟩), named, same⟩
      simpa using other
    · rw [List.mem_singleton.mp isOwn]
      exact ⟨_, List.mem_append_right _ (List.mem_singleton_self _), rfl, rfl⟩

theorem Paired.track {parses : ParseCache} {handle : FileHandle} (room : 0 < maxFiles)
    (few : w.tracked.length ≤ maxFiles.toNat)
    (paired : Paired P maxFiles
      { w with parses, tracked := w.tracked.filter (·.path != handle.path) ++ [handle] }) :
    Coherent P maxFiles (Workspace.track { w with parses } maxFiles handle) := by
  have fewer : (w.tracked.filter (·.path != handle.path)).length ≤ w.tracked.length :=
    List.length_filter_le _ _
  unfold Workspace.track
  dsimp only
  split
  · refine ⟨paired.shed, ?_⟩
    simp only [Workspace.shed, List.length_drop, List.length_append, List.length_singleton]
    omega
  · rename_i within
    exact ⟨paired, by simp only [List.length_append, List.length_singleton] at *; omega⟩

theorem Coherent.attaches {result : Except CapacityError (Option FileHandle)}
    (coherent : w.Coherent P maxFiles)
    (new : ∀ entry, entry.path = path → entry.Reads parser files → P entry)
    (attaches : w.Attaches parser files now serial path result after) : after.Coherent P maxFiles := by
  cases attaches with
  | standing => exact coherent
  | refused left => exact ⟨coherent.toPaired.withEntries left.sublist, coherent.fewFiles⟩
  | noRoom =>
    have nothing := coherent.toPaired.withEntries (List.nil_sublist w.parses.entries)
    exact ⟨{ nothing with
      numbered := fun handle member => Nat.lt_succ_of_lt (nothing.numbered handle member) },
      coherent.fewFiles⟩
  | parsed left fetched room =>
    rw [coherent.limit] at room ⊢
    exact Paired.track room coherent.fewFiles (coherent.toPaired.parsed left room
      (new _ rfl (ParseCache.reads_of_fetch _ _ coherent.size fetched)))

theorem handle?_track (w : Workspace) (maxFiles : Int) (handle : FileHandle) :
    (w.track maxFiles handle).handle? handle.path = some handle := by
  have last : ∀ files : List FileHandle, (∀ other ∈ files, other.path ≠ handle.path) →
      (files ++ [handle]).find? (·.path == handle.path) = some handle := by
    intro files others
    rw [List.find?_append, find?_key_none.mpr others]
    simp
  have others : ∀ other ∈ w.tracked.filter (·.path != handle.path), other.path ≠ handle.path :=
    fun other member => by simpa using (List.mem_filter.mp member).2
  unfold Workspace.track handle?
  dsimp only
  split
  -- Less than all files are shed, so the last one stays.
  · rw [Workspace.shed]
    dsimp only
    rw [List.drop_append_of_le_length]
    · exact last _ fun other member => others other (List.mem_of_mem_drop member)
    · rw [List.length_append, List.length_singleton]
      omega
  · exact last _ others

theorem Coherent.fresh {handle : FileHandle} (coherent : w.Coherent P maxFiles)
    (new : ∀ entry, entry.path = path → entry.Reads parser files → P entry)
    (attaches : w.Attaches parser files now serial path (.ok (some handle)) after) :
    ∃ entry, P entry ∧ entry.path = path ∧ ParseCache.isFresh files entry = true ∧
      handle.file = entry.file := by
  cases attaches with
  | standing tracked cached fresh same =>
    obtain ⟨member, named⟩ := mem_of_find?_key cached
    exact ⟨_, coherent.known _ member, named, fresh, same⟩
  | parsed left fetched room =>
    have reads := ParseCache.reads_of_fetch parser w.parses.parsed coherent.size fetched
    exact ⟨_, new _ rfl reads, rfl,
      ParseCache.isFresh_iff.mpr ⟨_, _, reads.read, Int.le_refl _⟩, rfl⟩

theorem Attaches.tracked {handle : FileHandle}
    (attaches : w.Attaches parser files now serial path (.ok (some handle)) after) :
    after.handle? path = some handle ∧ handle.path = path := by
  cases attaches with
  | standing tracked => exact ⟨tracked, (mem_of_find?_key tracked).2⟩
  | parsed left fetched room => exact ⟨handle?_track _ _ _, rfl⟩

end Workspace

namespace WorkspaceCache

variable {cache between : WorkspaceCache} {P : ParseEntry → Prop} {files : FileTree} {now : Int}
  {path root : Text} {w old : Workspace}

def newWorkspace (cache : WorkspaceCache) (files : FileTree) (now : Int) (root : Text) :
    Workspace :=
  ⟨cache.serial, root, Workspace.configOf files cache.limits.configs root,
    .empty cache.limits.maxFiles ParseCache.defaultMegabytes, now, []⟩

/-- What asking for the workspace with a root does to the cache. -/
inductive Opens (cache : WorkspaceCache) (files : FileTree) (now : Int) (root : Text) :
    Except CapacityError Workspace → WorkspaceCache → Prop
  | again {old : Workspace} (there : cache.workspace? root = some old) :
      Opens cache files now root (.ok { old with lastAccessed := now })
        (cache.store { old with lastAccessed := now })
  | noRoom (missing : cache.workspace? root = none) (full : cache.limits.maxWorkspaces ≤ 0) :
      Opens cache files now root (.error .noWorkspace) { cache with workspaces := [] }
  | first {kept : List Workspace} (missing : cache.workspace? root = none)
      (fewer : kept.Sublist cache.workspaces)
      (room : kept.length < cache.limits.maxWorkspaces.toNat) :
      Opens cache files now root (.ok (cache.newWorkspace files now root))
        { cache with
          workspaces := kept ++ [cache.newWorkspace files now root]
          serial := cache.serial + 1 }

theorem mem_of_oldest? {ws : List Workspace} (found : oldest? ws = some w) : w ∈ ws := by
  induction ws generalizing w with
  | nil => cases found
  | cons first more ih =>
    unfold oldest? at found
    split at found
    · simp only [Option.some.injEq] at found
      exact found ▸ List.mem_cons_self
    · rename_i other others
      split at found
      · simp only [Option.some.injEq] at found
        exact found ▸ List.mem_cons_of_mem first (ih others)
      · simp only [Option.some.injEq] at found
        exact found ▸ List.mem_cons_self

theorem eq_nil_of_oldest? {ws : List Workspace} (nothing : oldest? ws = none) : ws = [] := by
  cases ws with
  | nil => rfl
  | cons first more =>
    unfold oldest? at nothing
    split at nothing
    · cases nothing
    · split at nothing <;> cases nothing

theorem length_drop_lt (member : w ∈ cache.workspaces) :
    (cache.drop w.root).workspaces.length < cache.workspaces.length :=
  List.length_filter_lt_length_iff_exists.mpr ⟨w, member, by simp⟩

theorem dropOldest_spec (cache : WorkspaceCache) (n : Nat) :
    ∃ kept : List Workspace, cache.dropOldest n = { cache with workspaces := kept } ∧
      kept.Sublist cache.workspaces ∧ kept.length ≤ cache.workspaces.length - n := by
  induction n generalizing cache with
  | zero => exact ⟨_, rfl, .refl _, Nat.le_refl _⟩
  | succ n ih =>
    unfold dropOldest
    split
    · rename_i nothing
      exact ⟨cache.workspaces, rfl, .refl _, by simp [eq_nil_of_oldest? nothing]⟩
    · rename_i w found
      obtain ⟨kept, dropped, fewer, length⟩ := ih (cache.drop w.root)
      have less := length_drop_lt (mem_of_oldest? found)
      exact ⟨kept, dropped, fewer.trans List.filter_sublist, by omega⟩

theorem workspaceOf_opens (cache : WorkspaceCache) (files : FileTree) (now : Int) (path : Text) :
    cache.Opens files now (cache.rootOf files path).toText (cache.workspaceOf files now path).1
      (cache.workspaceOf files now path).2 := by
  unfold workspaceOf
  dsimp only
  split
  · rename_i there
    exact .again there
  · rename_i missing
    unfold makeRoom
    by_cases full : (cache.dropIdle now).limits.maxWorkspaces ≤ 0
    · simp only [full, ↓reduceIte]
      exact .noRoom missing full
    · obtain ⟨kept, dropped, fewer, length⟩ := (cache.dropIdle now).dropOldest_spec
        ((cache.dropIdle now).workspaces.length + 1 -
          (cache.dropIdle now).limits.maxWorkspaces.toNat)
      have inCache : kept.Sublist cache.workspaces := fewer.trans List.filter_sublist
      have new : kept.find? (·.root == (cache.rootOf files path).toText) = none :=
        find?_key_none.mpr fun other member =>
          find?_key_none.mp missing other (inCache.subset member)
      simp only [full, ↓reduceIte, dropped, store]
      rw [put_of_new new]
      exact .first missing inCache (by simp only [dropIdle] at *; omega)

/-- One workspace for a root, not more of them than allowed, and each of them coherent. -/
structure Coherent (P : ParseEntry → Prop) (cache : WorkspaceCache) : Prop where
  roots : (cache.workspaces.map (·.root)).Nodup
  few : cache.workspaces.length ≤ cache.limits.maxWorkspaces.toNat
  each : ∀ w ∈ cache.workspaces, w.Coherent P cache.limits.maxFiles

theorem coherent_empty (P : ParseEntry → Prop) (limits : WorkspaceLimits) :
    (empty limits).Coherent P :=
  ⟨List.nodup_nil, Nat.zero_le _, fun _ member => absurd member List.not_mem_nil⟩

theorem Coherent.restrict {kept : List Workspace} (coherent : cache.Coherent P)
    (fewer : kept.Sublist cache.workspaces) : Coherent P { cache with workspaces := kept } :=
  ⟨coherent.roots.sublist (fewer.map _), Nat.le_trans fewer.length_le coherent.few,
    fun w member => coherent.each w (fewer.subset member)⟩

theorem Coherent.imp {Q : ParseEntry → Prop} (coherent : cache.Coherent P)
    (known : ∀ w ∈ cache.workspaces, ∀ entry ∈ w.parses.entries, P entry → Q entry) :
    cache.Coherent Q where
  roots := coherent.roots
  few := coherent.few
  each := fun w member =>
    { coherent.each w member with
      known := fun entry inParses =>
        known w member entry inParses ((coherent.each w member).known entry inParses) }

theorem Coherent.store (coherent : cache.Coherent P) (serial : Nat)
    (there : cache.workspace? w.root = some old)
    (own : w.Coherent P cache.limits.maxFiles) :
    Coherent P { cache.store w with serial } where
  roots := by
    change ((put w cache.workspaces).map (·.root)).Nodup
    rw [map_put _ there (mem_of_find?_key there).2.symm]
    exact coherent.roots
  few := by
    have sameRoots := map_put (·.root) there (mem_of_find?_key there).2.symm
    have sameLength := congrArg List.length sameRoots
    rw [List.length_map, List.length_map] at sameLength
    exact Nat.le_trans (Nat.le_of_eq sameLength) coherent.few
  each := by
    intro other member
    rcases mem_of_mem_put member with rfl | member
    · exact own
    · exact coherent.each other member

theorem coherent_newWorkspace (cache : WorkspaceCache) (files : FileTree) (now : Int)
    (root : Text) : (cache.newWorkspace files now root).Coherent P cache.limits.maxFiles := by
  constructor
  · constructor <;> simp [newWorkspace, ParseCache.empty, ParseCache.paths]
  · simp [newWorkspace]

variable {result : Except CapacityError Workspace}

theorem Opens.limits (opens : cache.Opens files now root result between) :
    between.limits = cache.limits := by
  cases opens <;> rfl

theorem Opens.coherent (coherent : cache.Coherent P)
    (opens : cache.Opens files now root result between) : between.Coherent P := by
  cases opens with
  | again there =>
    obtain ⟨member, rfl⟩ := mem_of_find?_key there
    have own := coherent.each _ member
    exact coherent.store cache.serial there { own with }
  | noRoom => exact coherent.restrict (List.nil_sublist _)
  | first missing fewer room =>
    refine ⟨?_, ?_, ?_⟩
    · rw [List.map_append, List.nodup_append]
      refine ⟨coherent.roots.sublist (fewer.map _), by simp, ?_⟩
      intro name inKept own isOwn
      obtain ⟨other, member, rfl⟩ := List.mem_map.mp inKept
      have named : own = root := by simpa [newWorkspace] using isOwn
      exact named ▸ find?_key_none.mp missing other (fewer.subset member)
    · simp only [List.length_append, List.length_singleton]
      omega
    · intro other member
      rcases List.mem_append.mp member with member | isOwn
      · exact coherent.each other (fewer.subset member)
      · rw [List.mem_singleton.mp isOwn]
        exact coherent_newWorkspace cache files now root

theorem Opens.workspace? (opens : cache.Opens files now root (.ok w) between) :
    w.root = root ∧ between.workspace? w.root = some w := by
  cases opens with
  | again there =>
    obtain ⟨_, rfl⟩ := mem_of_find?_key there
    exact ⟨rfl, find?_put _ _⟩
  | first missing fewer =>
    have others := find?_key_none.mpr fun other member =>
      find?_key_none.mp missing other (fewer.subset member)
    refine ⟨rfl, ?_⟩
    simp [WorkspaceCache.workspace?, List.find?_append, newWorkspace, others]

/-- Where a file is tracked: its workspace has been opened, and the file attached to it. -/
inductive AttachesTo (cache : WorkspaceCache) (files : FileTree) (now : Int) (path : Text) :
    Except CapacityError (Option FileHandle) → WorkspaceCache → Prop
  | missing (noFile : files.isFile path = false) :
      AttachesTo cache files now path (.ok none) cache
  | noRoom (full : cache.limits.maxWorkspaces ≤ 0) :
      AttachesTo cache files now path (.error .noWorkspace) { cache with workspaces := [] }
  | opened {between : WorkspaceCache} {w after : Workspace} {serial : Nat}
      {result : Except CapacityError (Option FileHandle)}
      (isFile : files.isFile path = true)
      (opens : cache.Opens files now (cache.rootOf files path).toText (.ok w) between)
      (attaches : w.Attaches cache.limits.parser files now between.serial path result after) :
      AttachesTo cache files now path result { between.store after with serial }

theorem attach_of_missing (noFile : files.isFile (placeOf files path) = false) :
    cache.attach files now path = (.ok none, cache) := by
  unfold attach
  simp only [placeOf] at noFile
  simp [noFile]

theorem attach_of_unopened {e : CapacityError}
    (isFile : files.isFile (placeOf files path) = true)
    (opened : cache.workspaceOf files now (placeOf files path) = (.error e, between)) :
    cache.attach files now path = (.error e, between) := by
  unfold attach
  simp only [placeOf] at isFile opened
  simp [isFile, opened]

theorem attach_attachesTo (coherent : cache.Coherent P) (files : FileTree) (now : Int)
    (path : Text) :
    cache.AttachesTo files now (placeOf files path) (cache.attach files now path).1
      (cache.attach files now path).2 := by
  cases isFile : files.isFile (placeOf files path) with
  | false =>
    rw [attach_of_missing isFile]
    exact .missing isFile
  | true =>
    have opens := cache.workspaceOf_opens files now (placeOf files path)
    cases opened : cache.workspaceOf files now (placeOf files path) with
    | mk result between =>
      rw [opened] at opens
      cases result with
      | error e =>
        rw [attach_of_unopened isFile opened]
        cases opens with
        | noRoom _ full => exact .noRoom full
      | ok w =>
        have limits := opens.limits
        obtain ⟨named, there⟩ := opens.workspace?
        have own := (opens.coherent coherent).each w (mem_of_find?_key there).1
        rw [limits] at own
        obtain ⟨after, serial, attaches, stored⟩ :=
          attach_opened own.toPaired limits isFile opened
        rw [stored]
        exact .opened isFile opens (limits ▸ attaches)

variable {after : WorkspaceCache} {attached : Except CapacityError (Option FileHandle)}

theorem AttachesTo.limits (attaches : cache.AttachesTo files now path attached after) :
    after.limits = cache.limits := by
  cases attaches with
  | missing => rfl
  | noRoom => rfl
  | opened _ opens => exact opens.limits

theorem AttachesTo.coherent (coherent : cache.Coherent P)
    (new : ∀ entry, entry.path = path → entry.Reads cache.limits.parser files → P entry)
    (attaches : cache.AttachesTo files now path attached after) : after.Coherent P := by
  cases attaches with
  | missing => exact coherent
  | noRoom => exact coherent.restrict (List.nil_sublist _)
  | opened isFile opens attaches =>
    have opened := opens.coherent coherent
    obtain ⟨_, there⟩ := opens.workspace?
    have own := (opened.each _ (mem_of_find?_key there).1).attaches new attaches
    exact opened.store _ (attaches.root ▸ there) own

theorem AttachesTo.fresh {handle : FileHandle} (coherent : cache.Coherent P)
    (new : ∀ entry, entry.path = path → entry.Reads cache.limits.parser files → P entry)
    (attaches : cache.AttachesTo files now path (.ok (some handle)) after) :
    ∃ entry, P entry ∧ entry.path = path ∧ ParseCache.isFresh files entry = true ∧
      handle.file = entry.file := by
  cases attaches with
  | opened isFile opens attaches =>
    obtain ⟨_, there⟩ := opens.workspace?
    exact ((opens.coherent coherent).each _ (mem_of_find?_key there).1).fresh new attaches

theorem AttachesTo.full {e : CapacityError} (coherent : cache.Coherent P)
    (attaches : cache.AttachesTo files now path (.error e) after) :
    cache.limits.maxWorkspaces ≤ 0 ∨ cache.limits.maxFiles ≤ 0 := by
  cases attaches with
  | noRoom full => exact .inl full
  | opened isFile opens attaches =>
    obtain ⟨_, there⟩ := opens.workspace?
    have own := (opens.coherent coherent).each _ (mem_of_find?_key there).1
    cases attaches with
    | noRoom _ full => exact .inr (by rwa [own.limit, opens.limits] at full)

theorem AttachesTo.tracked {handle : FileHandle}
    (attaches : cache.AttachesTo files now path (.ok (some handle)) after) :
    ∃ w, after.workspace? (cache.rootOf files path).toText = some w ∧
      w.handle? path = some handle ∧ handle.path = path := by
  cases attaches with
  | opened isFile opens attaches =>
    rename_i w _
    refine ⟨w, ?_, attaches.tracked⟩
    rw [← opens.workspace?.1, ← attaches.root]
    exact find?_put _ _

end WorkspaceCache

end TemplateTypes
