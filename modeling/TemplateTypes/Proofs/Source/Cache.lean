import TemplateTypes.Source.Cache

namespace TemplateTypes

open Text

theorem find?_key {α : Type} {key : α → Text} {records : List α}
    (distinct : (records.map key).Nodup) {record : α} (member : record ∈ records) :
    records.find? (key · == key record) = some record := by
  induction records with
  | nil => cases member
  | cons first more ih =>
    obtain ⟨new, distinct⟩ := List.nodup_cons.mp distinct
    rcases List.mem_cons.mp member with rfl | member
    · simp
    · have other : key first ≠ key record := fun same =>
        new (same ▸ List.mem_map_of_mem member)
      rw [List.find?_cons_of_neg (by simpa using other)]
      exact ih distinct member

theorem mem_of_find?_key {α : Type} {key : α → Text} {records : List α} {record : α} {name : Text}
    (found : records.find? (key · == name) = some record) :
    record ∈ records ∧ key record = name :=
  ⟨List.mem_of_find?_eq_some found, by simpa using List.find?_some found⟩

theorem find?_key_none {α : Type} {key : α → Text} {records : List α} {name : Text} :
    records.find? (key · == name) = none ↔ ∀ record ∈ records, key record ≠ name := by
  simp

namespace FileTree

variable {files : FileTree} {path : Text}

theorem read_eq_ok_iff {content : Bytes} {modified : Int} :
    files.read path = .ok (content, modified) ↔
      ∃ place, files.status path = .ok (place, .file content modified) := by
  unfold read
  split
  · rename_i place _ _ known
    simp [known]
  · rename_i place node notFile known
    constructor
    · intro read
      cases read
    · rintro ⟨place, isFile⟩
      rw [known] at isFile
      cases isFile
      exact absurd rfl (notFile _ _ _)
  · rename_i e failed
    simp [failed]

theorem isFile_iff : files.isFile path = true ↔
    ∃ content modified, files.read path = .ok (content, modified) := by
  simp only [read_eq_ok_iff]
  unfold isFile
  split
  · rename_i place content modified known
    simp [known]
  · rename_i notFile
    simp only [Bool.false_eq_true, false_iff, not_exists]
    intro content modified place known
    exact notFile place content modified known

end FileTree

structure ParseEntry.Reads (parser : SourceParser) (entry : ParseEntry) (files : FileTree) :
    Prop where
  read : files.read entry.path = .ok (entry.file.content, entry.modified)
  parsed : entry.file = .ofContent parser entry.file.stamp entry.path entry.file.content
  fits : entry.file.content.length ≤ ParseCache.defaultMegabytes * 1024 * 1024

namespace ParseCache

variable {parser : SourceParser} {cache : ParseCache} {files : FileTree} {path : Text}

theorem isFresh_iff {entry : ParseEntry} : isFresh files entry = true ↔
    ∃ content modified, files.read entry.path = .ok (content, modified) ∧
      modified ≤ entry.modified := by
  simp only [FileTree.read_eq_ok_iff]
  unfold isFresh
  split
  · rename_i place content modified known
    simp only [decide_eq_true_eq, known, Except.ok.injEq, Prod.mk.injEq, Node.file.injEq,
      exists_eq_left']
    constructor
    · exact fun older => ⟨content, modified, ⟨rfl, rfl⟩, older⟩
    · rintro ⟨_, _, ⟨rfl, rfl⟩, older⟩
      exact older
  · rename_i notFile
    simp only [Bool.false_eq_true, false_iff]
    rintro ⟨content, modified, ⟨place, known⟩, _⟩
    exact notFile place content modified known

def withEntries (cache : ParseCache) (entries : List ParseEntry) : ParseCache :=
  { cache with entries }

/-- The entries that are left when a stale one of a path has been dropped. -/
structure Others (cache : ParseCache) (path : Text) (others : List ParseEntry) : Prop where
  sublist : others.Sublist cache.entries
  absent : ∀ entry ∈ others, entry.path ≠ path

theorem lookup_cases (cache : ParseCache) (files : FileTree) (path : Text) :
    (∃ entry, cache.entry? path = some entry ∧ isFresh files entry = true ∧
      cache.lookup files path = (some entry, cache)) ∨
    ∃ others, cache.Others path others ∧
      cache.lookup files path = (none, cache.withEntries others) := by
  unfold lookup
  split
  · rename_i missing
    exact .inr ⟨cache.entries, ⟨.refl _, find?_key_none.mp missing⟩, rfl⟩
  · rename_i entry found
    split
    · rename_i fresh
      exact .inl ⟨entry, found, fresh, rfl⟩
    · exact .inr ⟨_, ⟨List.filter_sublist, fun other kept => by
        simpa using (List.mem_filter.mp kept).2⟩, rfl⟩

theorem fetch_eq_ok_iff {content : Bytes} {modified : Int} :
    cache.fetch files path = .ok (content, modified) ↔
      files.read path = .ok (content, modified) ∧ content.length ≤ cache.maxBytes := by
  rw [FileTree.read_eq_ok_iff]
  unfold fetch
  split
  · rename_i failed
    simp [failed]
  · rename_i place _ _ known
    rw [known]
    split
    · rename_i large
      simp only [reduceCtorEq, Except.ok.injEq, Prod.mk.injEq, Node.file.injEq, false_iff]
      rintro ⟨⟨_, _, rfl, _⟩, small⟩
      omega
    · rename_i small
      simp only [Except.ok.injEq, Prod.mk.injEq, Node.file.injEq, exists_eq_left', iff_self_and]
      rintro ⟨rfl, _⟩
      omega
  · rename_i found notFile known
    have refused : ¬ ∃ place, files.status path = .ok (place, .file content modified) := by
      rintro ⟨place, isFile⟩
      rw [known] at isFile
      cases isFile
      exact notFile _ _ _ rfl
    split <;> simp [refused]

def takeIn (parser : SourceParser) (cache : ParseCache) (path : Text) (content : Bytes) (modified : Int) : ParseCache :=
  { cache with
    parsed := cache.parsed + 1
    misses := cache.misses + 1
    entries := cache.entries.drop (cache.entries.length + 1 - cache.maxFiles.toNat) ++
      [⟨path, .ofContent parser cache.parsed path content, modified⟩] }

def turnAway (cache : ParseCache) : ParseCache :=
  { cache with parsed := cache.parsed + 1, misses := cache.misses + 1, entries := [] }

inductive Parses (parser : SourceParser) (cache : ParseCache) (files : FileTree) (path : Text) :
    ParseOutcome → ParseCache → Prop
  | refused {fault : SourceFault} (fetched : cache.fetch files path = .error fault) :
      Parses parser cache files path (.refused fault) cache
  | noRoom {content : Bytes} {modified : Int}
      (fetched : cache.fetch files path = .ok (content, modified)) (full : cache.maxFiles ≤ 0) :
      Parses parser cache files path .noRoom cache.turnAway
  | parsed {content : Bytes} {modified : Int} {faults : List SourceFault}
      (fetched : cache.fetch files path = .ok (content, modified)) (room : 0 < cache.maxFiles) :
      Parses parser cache files path (.parsed (.ofContent parser cache.parsed path content) faults)
        (cache.takeIn parser path content modified)

theorem parse_parses (parser : SourceParser) (cache : ParseCache) (files : FileTree)
    (absent : ∀ entry ∈ cache.entries, entry.path ≠ path) :
    cache.Parses parser files path (cache.parse parser files path).1
      (cache.parse parser files path).2 := by
  have missed : cache.lookup files path = (none, cache) := by
    simp [lookup, entry?, find?_key_none.mpr absent]
  unfold parse
  rw [missed]
  dsimp only
  split
  · rename_i fault fetched
    exact .refused fetched
  · rename_i content modified fetched
    unfold insert
    by_cases full : cache.maxFiles ≤ 0
    · simp only [full, ↓reduceIte]
      exact .noRoom fetched full
    · simp only [full, ↓reduceIte]
      exact .parsed fetched (by omega)

theorem reads_of_fetch {content : Bytes} {modified : Int} (parser : SourceParser) (stamp : Nat)
    (size : cache.maxMegabytes = defaultMegabytes)
    (fetched : cache.fetch files path = .ok (content, modified)) :
    ParseEntry.Reads parser ⟨path, .ofContent parser stamp path content, modified⟩ files := by
  obtain ⟨read, small⟩ := fetch_eq_ok_iff.mp fetched
  rw [maxBytes, size] at small
  exact ⟨read, rfl, small⟩

end ParseCache

end TemplateTypes
