import TemplateTypes.Proofs.Workspace.Runs

namespace TemplateTypes.WorkspaceCache

open Text

def contents (cache : WorkspaceCache) : List (Nat × Text × List FileHandle) :=
  cache.workspaces.map fun w => (w.serial, w.root, w.tracked)

section

variable {cache between after : WorkspaceCache} {P : ParseEntry → Prop} {files : FileTree}
  {now : Int} {path root : Text} {w old : Workspace}

theorem contents_store (serial : Nat) (there : cache.workspace? w.root = some old)
    (sameSerial : w.serial = old.serial) (sameTracked : w.tracked = old.tracked) :
    contents { cache.store w with serial } = cache.contents :=
  map_put _ there (by rw [sameSerial, sameTracked, (mem_of_find?_key there).2])

theorem workspace?_of_contents_eq (same : between.contents = cache.contents)
    (there : between.workspace? root = some w) : (cache.workspace? root).isSome = true := by
  obtain ⟨member, named⟩ := mem_of_find?_key there
  have inContents : (w.serial, w.root, w.tracked) ∈ cache.contents :=
    same ▸ List.mem_map_of_mem member
  obtain ⟨other, inCache, sameView⟩ := List.mem_map.mp inContents
  have sameRoot : other.root = root := by
    simp only [Prod.mk.injEq] at sameView
    exact sameView.2.1.trans named
  exact List.find?_isSome.mpr ⟨other, inCache, beq_iff_eq.mpr sameRoot⟩

theorem Opens.contents_eq_iff (opens : cache.Opens files now root (.ok w) between) :
    between.contents = cache.contents ↔ (cache.workspace? root).isSome = true := by
  obtain ⟨named, opened⟩ := opens.workspace?
  rw [named] at opened
  constructor
  · exact fun same => workspace?_of_contents_eq same opened
  · intro there
    cases opens with
    | again held =>
      obtain ⟨_, rfl⟩ := mem_of_find?_key held
      exact contents_store cache.serial held rfl rfl
    | first missing =>
      rw [missing] at there
      cases there

theorem AttachesTo.contents_eq_iff
    (attaches : cache.AttachesTo files now path (.ok none) after) :
    after.contents = cache.contents ↔
      files.isFile path = false ∨
        (cache.workspace? (cache.rootOf files path).toText).isSome = true := by
  cases attaches with
  | missing noFile => simp [noFile]
  | opened isFile opens attaches =>
    have root := attaches.root
    have opened := opens.workspace?.2
    rw [← root] at opened
    cases attaches with
    | refused =>
      rw [contents_store _ opened rfl rfl, opens.contents_eq_iff]
      simp [isFile]

theorem AttachesTo.workspace?_isSome {found : Option FileHandle}
    (isFile : files.isFile path = true)
    (attaches : cache.AttachesTo files now path (.ok found) after) :
    (after.workspace? (cache.rootOf files path).toText).isSome = true := by
  cases attaches with
  | missing noFile =>
    rw [isFile] at noFile
    cases noFile
  | opened _ opens attaches =>
    rename_i between w tried serial _
    have stored := find?_put tried between.workspaces
    rw [attaches.root, opens.workspace?.1] at stored
    exact Option.isSome_of_eq_some stored

theorem attach_of_large {content : Bytes} {modified : Int} (coherent : cache.Coherent P)
    (someWorkspace : 1 ≤ cache.limits.maxWorkspaces)
    (untracked : ∀ w ∈ cache.workspaces, w.handle? (placeOf files path) = none)
    (read : files.read (placeOf files path) = .ok (content, modified))
    (large : ParseCache.defaultMegabytes * 1024 * 1024 < content.length) :
    (cache.attach files now path).1 = .ok none := by
  have attaches := attach_attachesTo coherent files now path
  generalize cache.attach files now path = attached at attaches
  obtain ⟨result, after⟩ := attached
  cases attaches with
  | missing => rfl
  | noRoom full => omega
  | opened isFile opens attaches =>
    rename_i between w tried serial
    have own := (opens.coherent coherent).each w (mem_of_find?_key opens.workspace?.2).1
    have refuses : ∀ got, w.parses.fetch files (placeOf files path) ≠ .ok got := by
      rintro ⟨found, time⟩ fetched
      obtain ⟨same, small⟩ := ParseCache.fetch_eq_ok_iff.mp fetched
      rw [read] at same
      cases same
      rw [ParseCache.maxBytes, own.size] at small
      omega
    have new : w.handle? (placeOf files path) = none := by
      cases opens with
      | again there =>
        have stillUntracked := untracked _ (mem_of_find?_key there).1
        exact stillUntracked
      | first => rfl
    cases attaches with
    | standing tracked =>
      rw [new] at tracked
      cases tracked
    | refused => rfl
    | noRoom fetched => exact absurd fetched (refuses _)
    | parsed _ fetched => exact absurd fetched (refuses _)

end

/-- When nothing is attached, the workspaces and what they track stay as they were if there is no
    file or if its workspace is open already, and in no other case. -/
theorem refused_attach_keeps_contents_iff (limits : WorkspaceLimits) (calls : List Call)
    (files : FileTree) (now : Int) (path : Text)
    (refused : ((run limits calls).attach files now path).1 = .ok none) :
    ((run limits calls).attach files now path).2.contents = (run limits calls).contents ↔
      files.isFile (Workspace.absolute files path).toText = false ∨
        ((run limits calls).workspace?
          (Workspace.rootOf files limits.markers (Workspace.absolute files path).toText).toText
          ).isSome = true := by
  have attaches := attach_attachesTo (coherent_run limits calls) files now path
  rw [refused] at attaches
  have kept := attaches.contents_eq_iff
  rwa [rootOf, run_limits] at kept

def withLargeFiles : FileTree :=
  let large := Node.file (List.replicate 5242881 0) 1
  ⟨[], [([['a']], .directory), ([['a'], ['m']], .file [] 1), ([['a'], ['x']], .file [] 1),
    ([['a'], ['y']], large), ([['b']], .directory), ([['b'], ['m']], .file [] 1),
    ([['b'], ['y']], large)], none⟩

def singleWorkspace : WorkspaceLimits := ⟨1, 100, 300000, [['m']], [], Source.Module.ofText⟩

def holdingFirst : WorkspaceCache :=
  run singleWorkspace [⟨withLargeFiles, 0, .attach ['/', 'a', '/', 'x']⟩]

theorem coherent_holdingFirst : holdingFirst.Coherent fun _ => True :=
  coherent_run _ _

theorem holdingFirst_refuses (path : Text)
    (read : withLargeFiles.read (placeOf withLargeFiles path) =
      .ok (List.replicate 5242881 0, 1))
    (untracked : holdingFirst.workspaces.all
      (fun w => (w.handle? (placeOf withLargeFiles path)).isNone) = true) :
    (holdingFirst.attach withLargeFiles 1 path).1 = .ok none := by
  refine attach_of_large coherent_holdingFirst (by decide +kernel) ?_ read ?_
  · exact fun w member => Option.isNone_iff_eq_none.mp (List.all_eq_true.mp untracked w member)
  · rw [List.length_replicate]
    decide

/-- In the workspace that is open the large file changes nothing. -/
theorem refused_attach_keeps_contents_open :
    (holdingFirst.attach withLargeFiles 1 ['/', 'a', '/', 'y']).1 = .ok none ∧
      (holdingFirst.attach withLargeFiles 1 ['/', 'a', '/', 'y']).2.contents =
        holdingFirst.contents := by
  have refused := holdingFirst_refuses ['/', 'a', '/', 'y'] rfl (by decide +kernel)
  have kept := refused_attach_keeps_contents_iff singleWorkspace
    [⟨withLargeFiles, 0, .attach ['/', 'a', '/', 'x']⟩] withLargeFiles 1 ['/', 'a', '/', 'y']
    refused
  exact ⟨refused, kept.mpr (.inr (by decide +kernel))⟩

/-- In the other workspace it takes the place of all that has been attached. -/
theorem refused_attach_drops_workspace :
    (holdingFirst.attach withLargeFiles 1 ['/', 'b', '/', 'y']).1 = .ok none ∧
      holdingFirst.workspaces.map (fun w => (w.root, w.tracked.map (·.path))) =
        [(['/', 'a'], [['/', 'a', '/', 'x']])] ∧
      (holdingFirst.attach withLargeFiles 1 ['/', 'b', '/', 'y']).2.workspaces.map (·.root) =
        [['/', 'b']] := by
  have refused := holdingFirst_refuses ['/', 'b', '/', 'y'] rfl (by decide +kernel)
  refine ⟨refused, by decide +kernel, ?_⟩
  have attaches := attach_attachesTo coherent_holdingFirst withLargeFiles 1 ['/', 'b', '/', 'y']
  have after := attaches.coherent coherent_holdingFirst fun _ _ _ => trivial
  have limits := attaches.limits
  rw [refused] at attaches
  have opened := attaches.workspace?_isSome (by decide +kernel)
  obtain ⟨w, there⟩ := Option.isSome_iff_exists.mp opened
  obtain ⟨member, root⟩ := mem_of_find?_key there
  have room : holdingFirst.limits.maxWorkspaces.toNat = 1 := by decide +kernel
  have few := after.few
  rw [limits, room] at few
  obtain ⟨only, alone⟩ := List.length_eq_one_iff.mp
    (Nat.le_antisymm few (List.length_pos_of_mem member))
  have home : (holdingFirst.rootOf withLargeFiles
      (placeOf withLargeFiles ['/', 'b', '/', 'y'])).toText = ['/', 'b'] := by decide +kernel
  rw [alone, List.mem_singleton] at member
  rw [alone, List.map_singleton, ← member, root, home]

end TemplateTypes.WorkspaceCache
