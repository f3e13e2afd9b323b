import Mathlib.Data.List.Nodup
import TemplateTypes.Proofs.Workspace.Coherence

namespace TemplateTypes.WorkspaceCache

open Text

inductive Operation
  | workspace (path : Text)
  | attach (path : Text)
  | evict (root : Text)
  | evictAll

/-- An operation with the files there are and the time it is when it is called. -/
structure Call where
  files : FileTree
  now : Int
  operation : Operation

def perform (cache : WorkspaceCache) (call : Call) : WorkspaceCache :=
  match call.operation with
  | .workspace path => (cache.workspaceOf call.files call.now path).2
  | .attach path => (cache.attach call.files call.now path).2
  | .evict root => cache.evict call.files root
  | .evictAll => cache.evictAll

def run (limits : WorkspaceLimits) (calls : List Call) : WorkspaceCache :=
  calls.foldl perform (empty limits)

section

variable {cache : WorkspaceCache} {P : ParseEntry → Prop}

theorem perform_coherent {call : Call} (coherent : cache.Coherent P)
    (new : ∀ entry path, entry.path = placeOf call.files path →
      entry.Reads cache.limits.parser call.files → P entry) :
    (cache.perform call).Coherent P ∧ (cache.perform call).limits = cache.limits := by
  obtain ⟨files, now, operation⟩ := call
  cases operation with
  | workspace path =>
    have opens := cache.workspaceOf_opens files now path
    exact ⟨opens.coherent coherent, opens.limits⟩
  | attach path =>
    have attaches := attach_attachesTo coherent files now path
    exact ⟨attaches.coherent coherent fun entry => new entry path, attaches.limits⟩
  | evict root => exact ⟨coherent.restrict List.filter_sublist, rfl⟩
  | evictAll => exact ⟨coherent.restrict (List.nil_sublist _), rfl⟩

theorem foldl_perform_coherent (calls : List Call) (coherent : cache.Coherent P)
    (new : ∀ call ∈ calls, ∀ entry path, entry.path = placeOf call.files path →
      entry.Reads cache.limits.parser call.files → P entry) :
    (calls.foldl perform cache).Coherent P ∧
      (calls.foldl perform cache).limits = cache.limits := by
  induction calls generalizing cache with
  | nil => exact ⟨coherent, rfl⟩
  | cons call more ih =>
    obtain ⟨next, limits⟩ := perform_coherent coherent (new call List.mem_cons_self)
    rw [← limits] at new ⊢
    exact ih next fun later member => new later (List.mem_cons_of_mem call member)

end

variable (limits : WorkspaceLimits)

theorem run_coherent {P : ParseEntry → Prop} (calls : List Call)
    (new : ∀ call ∈ calls, ∀ entry path, entry.path = placeOf call.files path →
      entry.Reads limits.parser call.files → P entry) : (run limits calls).Coherent P :=
  (foldl_perform_coherent calls (coherent_empty P limits) new).1

theorem coherent_run (calls : List Call) : (run limits calls).Coherent fun _ => True :=
  run_coherent limits calls fun _ _ _ _ _ _ => trivial

theorem run_limits (calls : List Call) : (run limits calls).limits = limits :=
  (foldl_perform_coherent (P := fun _ => True) calls (coherent_empty _ limits)
    fun _ _ _ _ _ _ => trivial).2

/-- Workspaces, tracked files and parses within the limits, each found under its own root or path.
    A parse is that of a tracked file, and a stamp is that of one tracked file. -/
structure InStep (cache : WorkspaceCache) : Prop where
  fewWorkspaces : cache.workspaces.length ≤ cache.limits.maxWorkspaces
  ownRoot : ∀ w ∈ cache.workspaces, cache.workspace? w.root = some w
  fewFiles : ∀ w ∈ cache.workspaces, w.tracked.length ≤ cache.limits.maxFiles
  fewParses : ∀ w ∈ cache.workspaces, w.parses.entries.length ≤ cache.limits.maxFiles
  ownPath : ∀ w ∈ cache.workspaces, ∀ entry ∈ w.parses.entries,
    w.parses.entry? entry.path = some entry
  tracked : ∀ w ∈ cache.workspaces, ∀ entry ∈ w.parses.entries,
    ∃ handle, w.handle? entry.path = some handle ∧ handle.file = entry.file
  stamped : ∀ w ∈ cache.workspaces, ∀ one ∈ w.tracked, ∀ other ∈ w.tracked,
    one.file.stamp = other.file.stamp → one = other

theorem Coherent.inStep {cache : WorkspaceCache} {P : ParseEntry → Prop}
    (coherent : cache.Coherent P) (workspaces : 1 ≤ cache.limits.maxWorkspaces)
    (files : 1 ≤ cache.limits.maxFiles) : cache.InStep where
  fewWorkspaces := by
    have few := coherent.few
    omega
  ownRoot := fun w member => find?_key coherent.roots member
  fewFiles := fun w member => by
    have few := (coherent.each w member).fewFiles
    omega
  fewParses := fun w member => by
    have few := (coherent.each w member).fewParses
    omega
  ownPath := fun w member entry => find?_key (coherent.each w member).parsedOnce
  tracked := fun w member entry inParses =>
    (coherent.each w member).handle?_of_cached
      (find?_key (coherent.each w member).parsedOnce inParses)
  stamped := fun w member one first other second same =>
    List.inj_on_of_nodup_map (coherent.each w member).stamped first second same

/-- Whatever is called, and whatever happens to the files in between, the cache stays within its
    limits and keeps no parse of a file that it does not track; a file just attached is tracked. -/
theorem run_in_step (someWorkspace : 1 ≤ limits.maxWorkspaces) (someFile : 1 ≤ limits.maxFiles)
    (calls : List Call) :
    (run limits calls).limits = limits ∧ (run limits calls).InStep ∧
      ∀ files now path handle,
        ((run limits calls).attach files now path).1 = .ok (some handle) →
        ∃ w ∈ (run limits (calls ++ [⟨files, now, .attach path⟩])).workspaces,
          w.root = (Workspace.rootOf files limits.markers handle.path).toText ∧
          w.handle? handle.path = some handle := by
  have coherent := coherent_run limits calls
  have limited := run_limits limits calls
  refine ⟨limited, coherent.inStep (by rwa [limited]) (by rwa [limited]), ?_⟩
  intro files now path handle attached
  have attaches := attach_attachesTo coherent files now path
  rw [attached] at attaches
  obtain ⟨w, there, tracked, named⟩ := attaches.tracked
  obtain ⟨member, root⟩ := mem_of_find?_key there
  rw [rootOf, limited, ← named] at root
  rw [← named] at tracked
  refine ⟨w, ?_, root, tracked⟩
  simpa [run, perform] using member

/-- The third file that is attached is one too many, and the first one is shed. -/
theorem run_in_step_after_shedding :
    let limits : WorkspaceLimits :=
      { WorkspaceLimits.default with maxWorkspaces := 1, maxFiles := 2 }
    let source := Utf8.encode "class A {}".toList
    let files : FileTree :=
      ⟨[], [([['p']], .directory), ([['p'], ['a']], .file source 1),
        ([['p'], ['b']], .file source 1), ([['p'], ['c']], .file source 1)], none⟩
    let calls : List Call :=
      [⟨files, 0, .attach "/p/a".toList⟩, ⟨files, 1, .attach "/p/b".toList⟩]
    (run limits calls).InStep ∧
      ∃ handle, ((run limits calls).attach files 2 "/p/c".toList).1 = .ok (some handle) ∧
        ∃ w ∈ (run limits (calls ++ [⟨files, 2, .attach "/p/c".toList⟩])).workspaces,
          w.root = "/p".toList ∧ w.handle? "/p/c".toList = some handle ∧
          w.tracked.map (·.path) = ["/p/b".toList, "/p/c".toList] := by
  intro limits source files calls
  obtain ⟨_, inStep, attached⟩ :=
    run_in_step limits (by decide) (by decide) calls
  have handed : ((run limits calls).attach files 2 "/p/c".toList).1 =
      .ok (some ⟨3, "/p/c".toList, .ofContent limits.parser 2 "/p/c".toList source, 2⟩) := by decide +kernel
  obtain ⟨w, member, root, tracked⟩ := attached files 2 "/p/c".toList _ handed
  have left : (run limits (calls ++ [⟨files, 2, .attach "/p/c".toList⟩])).workspaces.all
      (·.tracked.map (·.path) == ["/p/b".toList, "/p/c".toList]) = true := by decide +kernel
  have rooted : (Workspace.rootOf files limits.markers "/p/c".toList).toText = "/p".toList := by
    decide +kernel
  exact ⟨inStep, _, handed, w, member, root.trans rooted, tracked,
    by simpa using List.all_eq_true.mp left w member⟩

end TemplateTypes.WorkspaceCache
