import TemplateTypes.Proofs.Workspace.Runs
import TemplateTypes.Resolver.Local

namespace TemplateTypes

open Text

def WorkspaceLimits.admits? (limits : WorkspaceLimits) (files : FileTree) (path : Text) :
    Option Bytes :=
  (files.read path).toOption.bind fun (content, _) =>
    if 1 ≤ limits.maxWorkspaces ∧ 1 ≤ limits.maxFiles ∧
        content.length ≤ ParseCache.defaultMegabytes * 1024 * 1024 then some content
    else none

/-- What a cache with these limits answers for a file: its content, nothing, or an error. -/
def WorkspaceLimits.admission (limits : WorkspaceLimits) (files : FileTree) (path : Text) :
    Except CapacityError (Option Bytes) :=
  match (files.read path).toOption with
  | none => .ok none
  | some (content, _) =>
    if limits.maxWorkspaces ≤ 0 then .error .noWorkspace
    else if ParseCache.defaultMegabytes * 1024 * 1024 < content.length then .ok none
    else if limits.maxFiles ≤ 0 then .error .noFile
    else .ok (some content)

theorem WorkspaceLimits.admits?_eq (limits : WorkspaceLimits) (files : FileTree) (path : Text) :
    limits.admits? files path = (limits.admission files path).toOption.bind id := by
  unfold admits? admission
  cases (files.read path).toOption with
  | none => rfl
  | some found =>
    obtain ⟨content, modified⟩ := found
    simp only [Option.bind_some]
    repeat' split
    all_goals first | rfl | omega

theorem WorkspaceLimits.admission_of_admits {limits : WorkspaceLimits} {files : FileTree}
    {path : Text} {content : Bytes} (admitted : limits.admits? files path = some content) :
    limits.admission files path = .ok (some content) := by
  rw [admits?_eq] at admitted
  cases answer : limits.admission files path with
  | error e =>
    rw [answer] at admitted
    cases admitted
  | ok taken =>
    rw [answer] at admitted
    exact congrArg Except.ok admitted

/-- A parse of its own content. Were it handed out for this path, that would be the content there
    is now. -/
structure ParseEntry.Current (parser : SourceParser) (files : FileTree) (path : Text)
    (entry : ParseEntry) : Prop where
  parsed : entry.file = .ofContent parser entry.file.stamp entry.path entry.file.content
  fits : entry.file.content.length ≤ ParseCache.defaultMegabytes * 1024 * 1024
  current : entry.path = path → ∀ content modified, files.read path = .ok (content, modified) →
    modified ≤ entry.modified → content = entry.file.content

theorem ParseEntry.Reads.current {parser : SourceParser} {files : FileTree} {path : Text}
    {entry : ParseEntry} (reads : entry.Reads parser files) :
    entry.Current parser files path where
  parsed := reads.parsed
  fits := reads.fits
  current := by
    rintro rfl content modified read _
    rw [reads.read] at read
    cases read
    rfl

theorem ParseEntry.Current.congr {parser : SourceParser} {before after : FileTree} {path : Text}
    {entry : ParseEntry}
    (unchanged : (after.read path).toOption = (before.read path).toOption)
    (current : entry.Current parser before path) : entry.Current parser after path where
  parsed := current.parsed
  fits := current.fits
  current := by
    intro named content modified read older
    rw [read] at unchanged
    cases known : before.read path with
    | error e => simp [known, Except.toOption] at unchanged
    | ok found =>
      obtain rfl : (content, modified) = found := by
        simpa [known, Except.toOption] using unchanged
      exact current.current named content modified known older

namespace WorkspaceCache

/-- No parse of the cache is one of other content that would be handed out for the path. -/
abbrev ReadsCurrent (cache : WorkspaceCache) (files : FileTree) (path : Text) : Prop :=
  cache.Coherent (ParseEntry.Current cache.limits.parser files path)

def UpToDate (cache : WorkspaceCache) (files : FileTree) : Prop :=
  ∀ w ∈ cache.workspaces, ∀ entry ∈ w.parses.entries, ParseCache.isFresh files entry = true →
    ∃ modified, files.read entry.path = .ok (entry.file.content, modified)

theorem UpToDate.coherent {limits : WorkspaceLimits} {calls : List Call} {files : FileTree}
    (upToDate : (run limits calls).UpToDate files) (path : Text) :
    (run limits calls).ReadsCurrent files path := by
  have made : (run limits calls).Coherent fun entry =>
      ∃ tree : FileTree, entry.Reads limits.parser tree :=
    run_coherent limits calls fun call _ _ _ _ reads => ⟨call.files, reads⟩
  rw [ReadsCurrent, run_limits]
  refine made.imp fun w member entry inParses ⟨tree, reads⟩ => ?_
  refine ⟨reads.parsed, reads.fits, ?_⟩
  rintro rfl content modified read older
  have fresh := ParseCache.isFresh_iff.mpr ⟨content, modified, read, older⟩
  obtain ⟨_, current⟩ := upToDate w member entry inParses fresh
  rw [read] at current
  cases current
  rfl

theorem placeOf_congr {before after : FileTree} (here : after.here = before.here) (path : Text) :
    placeOf after path = placeOf before path := by
  unfold placeOf Workspace.absolute
  rw [here]

variable {cache after : WorkspaceCache} {files : FileTree} {now : Int} {path : Text}

theorem AttachesTo.readsCurrent {attached : Except CapacityError (Option FileHandle)} {other : Text}
    (coherent : cache.ReadsCurrent files path)
    (attaches : cache.AttachesTo files now other attached after) :
    after.ReadsCurrent files path := by
  rw [ReadsCurrent, attaches.limits]
  exact attaches.coherent coherent fun _ _ reads => reads.current

theorem AttachesTo.admits {handle : FileHandle}
    (coherent : cache.ReadsCurrent files path)
    (attaches : cache.AttachesTo files now path (.ok (some handle)) after) :
    cache.limits.admits? files path = some handle.file.content ∧
      handle.file = .ofContent cache.limits.parser handle.file.stamp path handle.file.content := by
  obtain ⟨entry, isCurrent, rfl, fresh, same⟩ :=
    attaches.fresh coherent fun _ _ reads => reads.current
  obtain ⟨content, modified, read, older⟩ := ParseCache.isFresh_iff.mp fresh
  have unchanged := isCurrent.current rfl content modified read older
  have final := attaches.coherent coherent fun _ _ reads => reads.current
  obtain ⟨w, there, tracked, _⟩ := attaches.tracked
  have member := (mem_of_find?_key there).1
  have someWorkspace := Nat.lt_of_lt_of_le (List.length_pos_of_mem member) final.few
  have someFile := Nat.lt_of_lt_of_le
    (List.length_pos_of_mem (mem_of_find?_key tracked).1) (final.each w member).fewFiles
  rw [attaches.limits] at someWorkspace someFile
  have fits := isCurrent.fits
  rw [same]
  refine ⟨?_, isCurrent.parsed⟩
  simp only [WorkspaceLimits.admits?, read, Except.toOption, Option.bind_some, unchanged]
  exact if_pos ⟨by omega, by omega, fits⟩

theorem Opens.room {P : ParseEntry → Prop} {root : Text} {w : Workspace}
    (coherent : cache.Coherent P) (opens : cache.Opens files now root (.ok w) after) :
    0 < cache.limits.maxWorkspaces := by
  have member := (mem_of_find?_key opens.workspace?.2).1
  have someWorkspace :=
    Nat.lt_of_lt_of_le (List.length_pos_of_mem member) (opens.coherent coherent).few
  rw [opens.limits] at someWorkspace
  omega

theorem AttachesTo.admission_eq {content : Bytes} {modified : Int}
    (read : files.read path = .ok (content, modified))
    (coherent : cache.ReadsCurrent files path)
    {result : Except CapacityError (Option FileHandle)}
    (attaches : cache.AttachesTo files now path result after) :
    result.map (·.map (·.file.content)) = cache.limits.admission files path := by
  cases result with
  | ok attached =>
    cases attached with
    | some handle => exact (WorkspaceLimits.admission_of_admits (attaches.admits coherent).1).symm
    | none =>
      cases attaches with
      | missing noFile =>
        rw [FileTree.isFile_iff.mpr ⟨content, modified, read⟩] at noFile
        cases noFile
      | opened isFile opens attaches =>
        have own := (opens.coherent coherent).each _ (mem_of_find?_key opens.workspace?.2).1
        have room := opens.room coherent
        cases attaches with
        | refused left fetched =>
          have large : ParseCache.defaultMegabytes * 1024 * 1024 < content.length := by
            by_contra small
            rw [← own.size] at small
            have fetches := ParseCache.fetch_eq_ok_iff.mpr ⟨read, Int.not_lt.mp small⟩
            cases fetches.symm.trans fetched
          simp only [WorkspaceLimits.admission, read, Except.toOption]
          rw [if_neg (by omega), if_pos large]
          rfl
  | error e =>
    cases attaches with
    | noRoom full =>
      simp only [WorkspaceLimits.admission, read, Except.toOption]
      rw [if_pos full]
      rfl
    | opened isFile opens attaches =>
      have own := (opens.coherent coherent).each _ (mem_of_find?_key opens.workspace?.2).1
      have room := opens.room coherent
      cases attaches with
      | noRoom fetched full =>
        obtain ⟨again, small⟩ := ParseCache.fetch_eq_ok_iff.mp fetched
        cases read.symm.trans again
        rw [ParseCache.maxBytes, own.size] at small
        rw [own.limit, opens.limits] at full
        simp only [WorkspaceLimits.admission, read, Except.toOption]
        rw [if_neg (by omega), if_neg (by omega), if_pos full]
        rfl

theorem attach_admission (now : Int)
    (coherent : cache.ReadsCurrent files (placeOf files path)) :
    (cache.attach files now path).1.map (·.map (·.file.content)) =
      cache.limits.admission files (placeOf files path) := by
  cases read : files.read (placeOf files path) with
  | ok found => exact (attach_attachesTo coherent files now path).admission_eq read coherent
  | error e =>
    have noFile : files.isFile (placeOf files path) = false := by
      rw [Bool.eq_false_iff, ne_eq, FileTree.isFile_iff, read]
      simp
    rw [attach_of_missing noFile, WorkspaceLimits.admission, read]
    rfl

end WorkspaceCache

namespace Local

variable {cache : WorkspaceCache} {files : FileTree} {owner : Text}

/-- The signature that the owner's file gives an expression when it is read anew. -/
def signature? (limits : WorkspaceLimits) (files : FileTree) (owner expression : Text) :
    Option Text :=
  let path := WorkspaceCache.placeOf files owner
  if owner.isEmpty then none
  else (limits.admits? files path).bind fun content =>
    (describeIn (.ofContent limits.parser 0 path content) expression).toOption.bind id

theorem signature?_congr {limits : WorkspaceLimits} {before after : FileTree}
    {expression : Text} (here : after.here = before.here)
    (unchanged : (after.read (WorkspaceCache.placeOf before owner)).toOption =
      (before.read (WorkspaceCache.placeOf before owner)).toOption) :
    signature? limits after owner expression = signature? limits before owner expression := by
  have place := WorkspaceCache.placeOf_congr here owner
  simp only [signature?, WorkspaceLimits.admits?, place, unchanged]

theorem describeIn_ofContent (parser : SourceParser) (stamp : Nat) (path : Text) (content : Bytes)
    (expression : Text) :
    describeIn (.ofContent parser stamp path content) expression =
      describeIn (.ofContent parser 0 path content) expression := rfl

/-- What is said of an expression, errors included, when the owner's file is read anew. -/
def outcome (limits : WorkspaceLimits) (files : FileTree) (owner expression : Text) :
    Except LocalError (Option Text) :=
  let path := WorkspaceCache.placeOf files owner
  if owner.isEmpty then .ok none
  else
    match limits.admission files path with
    | .error e => .error (.capacity e)
    | .ok none => .ok none
    | .ok (some content) => describeIn (.ofContent limits.parser 0 path content) expression

theorem outcome_congr {limits : WorkspaceLimits} {before after : FileTree}
    (here : after.here = before.here)
    (unchanged : (after.read (WorkspaceCache.placeOf before owner)).toOption =
      (before.read (WorkspaceCache.placeOf before owner)).toOption) (expression : Text) :
    outcome limits after owner expression = outcome limits before owner expression := by
  have place := WorkspaceCache.placeOf_congr here owner
  simp only [outcome, WorkspaceLimits.admission, place, unchanged]

theorem describe_outcome (now : Int)
    (coherent : cache.ReadsCurrent files (WorkspaceCache.placeOf files owner))
    (expression : Text) : (describe cache files now owner expression).1 =
      outcome cache.limits files owner expression := by
  unfold describe outcome
  by_cases nameless : owner.isEmpty = true
  · simp only [nameless, ↓reduceIte]
  · have attaches := WorkspaceCache.attach_attachesTo coherent files now owner
    have admitted := WorkspaceCache.attach_admission now coherent
    simp only [nameless, Bool.false_eq_true, ↓reduceIte]
    rw [← admitted]
    split
    · rename_i e next attached
      rw [attached]
      rfl
    · rename_i next attached
      rw [attached]
      rfl
    · rename_i handle next attached
      rw [attached] at attaches ⊢
      have parsed := (attaches.admits coherent).2
      show describeIn handle.file expression = _
      rw [parsed, describeIn_ofContent]
      rfl

theorem signature?_eq (limits : WorkspaceLimits) (files : FileTree) (owner expression : Text) :
    signature? limits files owner expression =
      (outcome limits files owner expression).toOption.bind id := by
  simp only [signature?, outcome, WorkspaceLimits.admits?_eq]
  split
  · rfl
  · split
    · rename_i e refused
      rw [refused]
      rfl
    · rename_i refused
      rw [refused]
      rfl
    · rename_i content taken
      rw [taken]
      rfl

theorem describe_eq (now : Int)
    (coherent : cache.ReadsCurrent files (WorkspaceCache.placeOf files owner))
    (expression : Text) :
    (describe cache files now owner expression).1.toOption.bind id =
        signature? cache.limits files owner expression ∧
      (describe cache files now owner expression).2.ReadsCurrent files
        (WorkspaceCache.placeOf files owner) ∧
      (describe cache files now owner expression).2.limits = cache.limits := by
  refine ⟨by rw [describe_outcome now coherent, signature?_eq], ?_⟩
  unfold describe
  by_cases nameless : owner.isEmpty = true
  · simp only [nameless, ↓reduceIte]
    exact ⟨coherent, trivial⟩
  · have attaches := WorkspaceCache.attach_attachesTo coherent files now owner
    have final := attaches.readsCurrent coherent
    have limits := attaches.limits
    simp only [nameless, Bool.false_eq_true, ↓reduceIte]
    split
    all_goals
      rename_i next attached
      rw [attached] at final limits
      exact ⟨final, limits⟩

theorem infer_eq (now : Int)
    (coherent : cache.ReadsCurrent files (WorkspaceCache.placeOf files owner))
    (bindings : BindingMap) :
    (infer files now owner bindings cache).1 = bindings.map fun binding =>
      entry binding.1 (signature? cache.limits files owner binding.2) := by
  induction bindings generalizing cache with
  | nil => rfl
  | cons binding more ih =>
    obtain ⟨name, expression⟩ := binding
    obtain ⟨described, next, limits⟩ := describe_eq now coherent expression
    simp only [infer, List.map_cons, described, ih next, limits]

end Local

end TemplateTypes
