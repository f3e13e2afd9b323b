import TemplateTypes.Proofs.Files.Path
import TemplateTypes.Proofs.Files.Tree
import TemplateTypes.Proofs.Workspace.Runs

namespace TemplateTypes

open Text

/-- What is under an absolute path in both trees is the same, or has been written later in the
    second one. -/
def FileTree.WrittenLater (before after : FileTree) : Prop :=
  ∀ path old oldTime new newTime, startsWith path ['/'] = true →
    before.read path = .ok (old, oldTime) → after.read path = .ok (new, newTime) →
      new = old ∨ oldTime < newTime

def Node.later : Node → Node → Bool
  | .file old oldTime, .file new newTime => new == old || oldTime < newTime
  | _, _ => true

structure ParseEntry.ReadFrom (parser : SourceParser) (trees : List FileTree) (entry : ParseEntry) :
    Prop where
  rooted : startsWith entry.path ['/'] = true
  seen : ∃ tree ∈ trees, entry.Reads parser tree

/-- A parse made from one of the trees that have been seen is, while it is fresh, that of the
    content there is now. -/
theorem ParseEntry.ReadFrom.current {parser : SourceParser} {entry : ParseEntry} {seen : List FileTree} {files : FileTree}
    (dated : (seen ++ [files]).Pairwise FileTree.WrittenLater)
    (made : entry.ReadFrom parser (seen ++ [files])) (fresh : ParseCache.isFresh files entry = true) :
    ∃ modified, files.read entry.path = .ok (entry.file.content, modified) := by
  obtain ⟨rooted, tree, member, reads⟩ := made
  obtain ⟨content, modified, current, older⟩ := ParseCache.isFresh_iff.mp fresh
  rcases List.mem_append.mp member with earlier | now
  -- Other content would have come with a later time, and the entry would not be fresh.
  · have later := (List.pairwise_append.mp dated).2.2 tree earlier files
      (List.mem_singleton_self files)
    rcases later _ _ _ _ _ rooted reads.read current with same | newer
    · exact ⟨modified, same ▸ current⟩
    · omega
  · exact ⟨entry.modified, List.mem_singleton.mp now ▸ reads.read⟩

namespace WorkspaceCache

variable (limits : WorkspaceLimits)

end WorkspaceCache

end TemplateTypes
