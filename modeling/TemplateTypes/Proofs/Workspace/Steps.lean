import TemplateTypes.Proofs.Source.Cache
import TemplateTypes.Workspace.Cache

namespace TemplateTypes

open Text

namespace WorkspaceCache

variable {w other : Workspace} {ws : List Workspace}

theorem mem_of_mem_put (member : other ∈ put w ws) : other = w ∨ other ∈ ws := by
  induction ws with
  | nil => exact .inl (List.mem_singleton.mp member)
  | cons first more ih =>
    unfold put at member
    split at member
    · rcases List.mem_cons.mp member with same | member
      · exact .inl same
      · exact .inr (List.mem_cons_of_mem first member)
    · rcases List.mem_cons.mp member with rfl | member
      · exact .inr List.mem_cons_self
      · exact (ih member).imp_right (List.mem_cons_of_mem first)

theorem map_put {α : Type} (view : Workspace → α) {old : Workspace}
    (there : ws.find? (·.root == w.root) = some old) (same : view w = view old) :
    (put w ws).map view = ws.map view := by
  induction ws with
  | nil => cases there
  | cons first more ih =>
    unfold put
    by_cases here : first.root = w.root
    · simp only [here, beq_self_eq_true, List.find?_cons_of_pos, Option.some.injEq] at there
      subst there
      simp [here, same]
    · have later : more.find? (·.root == w.root) = some old := by
        rwa [List.find?_cons_of_neg (by simpa using here)] at there
      simp [here, ih later]

theorem put_of_new (new : ws.find? (·.root == w.root) = none) : put w ws = ws ++ [w] := by
  induction ws with
  | nil => rfl
  | cons first more ih =>
    have others := find?_key_none.mp new
    have here : first.root ≠ w.root := others first List.mem_cons_self
    have rest : more.find? (·.root == w.root) = none :=
      find?_key_none.mpr fun other member => others other (List.mem_cons_of_mem first member)
    simp [put, here, ih rest]

theorem find?_put (w : Workspace) (ws : List Workspace) :
    (put w ws).find? (·.root == w.root) = some w := by
  induction ws with
  | nil => simp [put]
  | cons first more ih =>
    unfold put
    split
    · simp
    · rename_i other
      rwa [List.find?_cons_of_neg (by simpa using other)]

theorem put_put (sameRoot : other.root = w.root) : put other (put w ws) = put other ws := by
  induction ws with
  | nil => simp [put, sameRoot]
  | cons first more ih =>
    by_cases here : first.root = w.root
    · simp [put, here, sameRoot]
    · simp [put, here, sameRoot, ih]

end WorkspaceCache

/-- One tracked file and one parse for a path, and no parse without its tracked file. `P` is what
    is known of every parse. -/
structure Workspace.Paired (P : ParseEntry → Prop) (maxFiles : Int) (w : Workspace) : Prop where
  limit : w.parses.maxFiles = maxFiles
  size : w.parses.maxMegabytes = ParseCache.defaultMegabytes
  fewParses : w.parses.entries.length ≤ maxFiles.toNat
  trackedOnce : (w.tracked.map (·.path)).Nodup
  parsedOnce : w.parses.paths.Nodup
  numbered : ∀ handle ∈ w.tracked, handle.file.stamp < w.parses.parsed
  stamped : (w.tracked.map (·.file.stamp)).Nodup
  tracked : ∀ entry ∈ w.parses.entries, ∃ handle ∈ w.tracked,
    handle.path = entry.path ∧ handle.file = entry.file
  known : ∀ entry ∈ w.parses.entries, P entry

structure Workspace.Coherent (P : ParseEntry → Prop) (maxFiles : Int) (w : Workspace) : Prop
    extends Workspace.Paired P maxFiles w where
  fewFiles : w.tracked.length ≤ maxFiles.toNat

namespace Workspace

def withEntries (w : Workspace) (entries : List ParseEntry) : Workspace :=
  { w with parses := w.parses.withEntries entries }

variable {parser : SourceParser} {w after : Workspace} {P : ParseEntry → Prop} {maxFiles : Int} {files : FileTree}
  {now : Int} {serial : Nat} {path : Text}

/-- What attaching a file makes of its workspace, `others` being the parses that are not a stale
    one of the file. -/
inductive Attaches (parser : SourceParser) (files : FileTree) (now : Int) (serial : Nat) (path : Text) (w : Workspace) :
    Except CapacityError (Option FileHandle) → Workspace → Prop
  -- The file is attached already, and its parse is fresh.
  | standing {handle : FileHandle} {entry : ParseEntry} (tracked : w.handle? path = some handle)
      (cached : w.parses.entry? path = some entry)
      (fresh : ParseCache.isFresh files entry = true) (same : handle.file = entry.file) :
      Attaches parser files now serial path w (.ok (some handle)) w
  | refused {others : List ParseEntry} {fault : SourceFault} (left : w.parses.Others path others)
      (fetched : w.parses.fetch files path = .error fault) :
      Attaches parser files now serial path w (.ok none) (w.withEntries others)
  | noRoom {content : Bytes} {modified : Int}
      (fetched : w.parses.fetch files path = .ok (content, modified))
      (full : w.parses.maxFiles ≤ 0) :
      Attaches parser files now serial path w (.error .noFile)
        { w with parses := w.parses.turnAway }
  | parsed {others : List ParseEntry} {content : Bytes} {modified : Int}
      (left : w.parses.Others path others)
      (fetched : w.parses.fetch files path = .ok (content, modified))
      (room : 0 < w.parses.maxFiles) :
      Attaches parser files now serial path w
        (.ok (some ⟨serial, path, .ofContent parser w.parses.parsed path content, now⟩))
        (track { w with parses := (w.parses.withEntries others).takeIn parser path content modified }
          w.parses.maxFiles ⟨serial, path, .ofContent parser w.parses.parsed path content, now⟩)

@[simp] theorem track_root (w : Workspace) (maxFiles : Int) (handle : FileHandle) :
    (w.track maxFiles handle).root = w.root := by
  unfold track
  dsimp only
  split <;> rfl

@[simp] theorem track_lastAccessed (w : Workspace) (maxFiles : Int) (handle : FileHandle) :
    (w.track maxFiles handle).lastAccessed = w.lastAccessed := by
  unfold track
  dsimp only
  split <;> rfl

theorem Attaches.lastAccessed {result : Except CapacityError (Option FileHandle)}
    (attaches : w.Attaches parser files now serial path result after) :
    after.lastAccessed = w.lastAccessed := by
  cases attaches <;> simp [withEntries]

theorem Attaches.root {result : Except CapacityError (Option FileHandle)}
    (attaches : w.Attaches parser files now serial path result after) : after.root = w.root := by
  cases attaches <;> simp [withEntries]

theorem Paired.handle?_of_cached {entry : ParseEntry} (paired : w.Paired P maxFiles)
    (found : w.parses.entry? path = some entry) :
    ∃ handle, w.handle? path = some handle ∧ handle.file = entry.file := by
  obtain ⟨member, rfl⟩ := mem_of_find?_key found
  obtain ⟨handle, inTracked, named, same⟩ := paired.tracked entry member
  exact ⟨handle, named ▸ find?_key paired.trackedOnce inTracked, same⟩

end Workspace

namespace WorkspaceCache

variable {cache between : WorkspaceCache} {P : ParseEntry → Prop} {files : FileTree} {now : Int}
  {path : Text} {w : Workspace}

theorem attachParsed_attaches (cache : WorkspaceCache) (files : FileTree) (now : Int)
    {others : List ParseEntry} (left : w.parses.Others path others)
    (limit : w.parses.maxFiles = cache.limits.maxFiles) :
    ∃ after serial,
      w.Attaches cache.limits.parser files now cache.serial path
        (cache.attachParsed files now (w.withEntries others) path).1 after ∧
      (cache.attachParsed files now (w.withEntries others) path).2 =
        { cache.store after with serial } := by
  have parses := ParseCache.parse_parses cache.limits.parser (w.withEntries others).parses files left.absent
  unfold attachParsed
  generalize (w.withEntries others).parses.parse cache.limits.parser files path = parse at parses
  obtain ⟨outcome, parsed⟩ := parse
  cases parses with
  | refused fetched => exact ⟨_, _, .refused left fetched, rfl⟩
  | noRoom fetched full => exact ⟨_, _, .noRoom fetched full, rfl⟩
  | parsed fetched room =>
    dsimp only
    rw [← limit]
    exact ⟨_, _, .parsed left fetched room, rfl⟩

def placeOf (files : FileTree) (path : Text) : Text := (Workspace.absolute files path).toText

theorem attach_opened (paired : w.Paired P cache.limits.maxFiles)
    (limits : between.limits = cache.limits)
    (isFile : files.isFile (placeOf files path) = true)
    (opened : cache.workspaceOf files now (placeOf files path) = (.ok w, between)) :
    ∃ after serial,
      w.Attaches between.limits.parser files now between.serial (placeOf files path)
        (cache.attach files now path).1 after ∧
      (cache.attach files now path).2 = { between.store after with serial } := by
  unfold attach
  simp only [placeOf] at *
  generalize (Workspace.absolute files path).toText = path at *
  have limit : w.parses.maxFiles = between.limits.maxFiles := limits ▸ paired.limit
  simp only [isFile, Bool.not_true, Bool.false_eq_true, ↓reduceIte, opened]
  split
  · rename_i untracked
    -- There is no parse to be found either, since it would be one of a tracked file.
    have absent : w.parses.Others path w.parses.entries := by
      refine ⟨.refl _, find?_key_none.mp ?_⟩
      cases found : w.parses.entry? path with
      | none => exact found
      | some entry =>
        obtain ⟨handle, tracked, _⟩ := paired.handle?_of_cached found
        rw [untracked] at tracked
        cases tracked
    exact attachParsed_attaches between files now absent limit
  · rename_i handle tracked
    rcases ParseCache.lookup_cases w.parses files path with
      ⟨entry, cached, fresh, looked⟩ | ⟨others, left, looked⟩
    · obtain ⟨_, same, file⟩ := paired.handle?_of_cached cached
      rw [tracked] at same
      cases same
      have current : some entry.file.stamp = some handle.file.stamp := by rw [file]
      simp only [ParseCache.cached?, looked, Option.map_some, current, ↓reduceIte]
      exact ⟨w, between.serial, .standing tracked cached fresh file, rfl⟩
    · simp only [ParseCache.cached?, looked, Option.map_none, reduceCtorEq, ↓reduceIte]
      obtain ⟨after, serial, attaches, stored⟩ :=
        attachParsed_attaches (between.store (w.withEntries others)) files now left limit
      have replaced : put after (put (w.withEntries others) between.workspaces) =
          put after between.workspaces := put_put attaches.root
      refine ⟨after, serial, attaches, stored.trans ?_⟩
      simp [store, replaced]

end WorkspaceCache

end TemplateTypes
