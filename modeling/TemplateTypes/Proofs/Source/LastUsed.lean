import Mathlib.Data.List.Dedup
import Mathlib.Data.List.DropRight
import Mathlib.Data.List.Induction
import TemplateTypes.Proofs.Source.Cache
import TemplateTypes.Source.Parser

namespace TemplateTypes

open Text

/-- The `n` names used last, in the order of their last use: without the earlier uses of a name,
    which `dedup` drops, and without the names in front of the last `n`. -/
def lastUsed (n : Nat) (names : List Text) : List Text := names.dedup.rtake n

theorem dedup_concat (names : List Text) (name : Text) :
    (names ++ [name]).dedup = names.dedup.filter (· != name) ++ [name] := by
  induction names with
  | nil => rfl
  | cons first more ih =>
    rw [List.cons_append]
    by_cases again : first ∈ more
    · rw [List.dedup_cons_of_mem again, ← ih]
      exact List.dedup_cons_of_mem (List.mem_append_left _ again)
    · rw [List.dedup_cons_of_notMem again]
      by_cases same : first = name
      · rw [List.filter_cons_of_neg (by simpa using same), ← ih]
        exact List.dedup_cons_of_mem (by simp [same])
      · rw [List.filter_cons_of_pos (by simpa using same), List.cons_append, ← ih]
        exact List.dedup_cons_of_notMem (by simp [again, same])

theorem rtake_of_length_le {α : Type} {n : Nat} {l : List α} (short : l.length ≤ n) :
    l.rtake n = l := by
  rw [List.rtake, Nat.sub_eq_zero_of_le short, List.drop_zero]

theorem rtake_append_of_le {α : Type} {n : Nat} (before : List α) {after : List α}
    (enough : n ≤ after.length) : (before ++ after).rtake n = after.rtake n := by
  have behind : (before ++ after).length - n = before.length + (after.length - n) := by
    rw [List.length_append]
    omega
  rw [List.rtake, behind, List.drop_length_add_append, ← List.rtake]

theorem length_lastUsed_le (n : Nat) (names : List Text) : (lastUsed n names).length ≤ n := by
  rw [lastUsed, List.rtake, List.length_drop]
  omega

theorem nodup_lastUsed (n : Nat) (names : List Text) : (lastUsed n names).Nodup :=
  (List.nodup_dedup names).sublist (List.drop_sublist _ _)

theorem lastUsed_concat (n : Nat) (names : List Text) (name : Text) :
    lastUsed n (names ++ [name]) = ((lastUsed n names).filter (· != name) ++ [name]).rtake n := by
  obtain ⟨dropped, cut⟩ : ∃ dropped, names.dedup = dropped ++ lastUsed n names :=
    ⟨_, (List.take_append_drop _ _).symm⟩
  have oneLess :
      (lastUsed n names).length ≤ ((lastUsed n names).filter (· != name)).length + 1 := by
    rw [← (nodup_lastUsed n names).erase_eq_filter name, List.length_erase]
    split <;> omega
  rw [lastUsed, dedup_concat, cut, List.filter_append, List.append_assoc]
  by_cases full : n ≤ (lastUsed n names).length
  · apply rtake_append_of_le
    rw [List.length_append]
    exact full.trans oneLess
  · -- Nothing has been dropped so far.
    have short : names.dedup.length ≤ n := by
      rw [lastUsed, List.rtake, List.length_drop] at full
      omega
    have all : lastUsed n names = names.dedup := rtake_of_length_le short
    obtain rfl : dropped = [] := by
      rw [← all] at cut
      exact List.self_eq_append_left.mp cut
    rfl

/-- A path that is asked for, with the files there are at that time. -/
structure ParseCall where
  files : FileTree
  path : Text

/-- The file that is asked for can be read, is not too large, and holds what it holds at every
    other call. -/
structure ParseCall.Steady (call : ParseCall) (contents : Text → Bytes × Int) (megabytes : Int) :
    Prop where
  read : call.files.read call.path = .ok (contents call.path)
  fits : (contents call.path).1.length ≤ megabytes * 1024 * 1024

def ParseOutcome.file? : ParseOutcome → Option ParsedFile
  | .parsed file _ => some file
  | _ => none

namespace ParseCache

variable {parser : SourceParser} {cache : ParseCache} {call : ParseCall} {contents : Text → Bytes × Int}

theorem parse_of_kept {entry : ParseEntry} (found : cache.entry? call.path = some entry)
    (fresh : isFresh call.files entry = true) : cache.parse parser call.files call.path =
      (.parsed entry.file [], { cache.use entry with hits := cache.hits + 1 }) := by
  have looked : cache.lookup call.files call.path = (some entry, cache) := by
    simp [lookup, found, fresh]
  rw [parse, looked]

theorem parse_of_absent {content : Bytes} {modified : Int} (absent : call.path ∉ cache.paths)
    (fetched : cache.fetch call.files call.path = .ok (content, modified))
    (room : 0 < cache.maxFiles) : ∃ faults, cache.parse parser call.files call.path =
      (.parsed (.ofContent parser cache.parsed call.path content) faults,
        cache.takeIn parser call.path content modified) := by
  have parses := cache.parse_parses parser call.files fun entry member same =>
    absent (List.mem_map.mpr ⟨entry, member, same⟩)
  generalize cache.parse parser call.files call.path = result at parses ⊢
  obtain ⟨outcome, after⟩ := result
  dsimp only at parses
  cases parses with
  | refused failed => cases fetched.symm.trans failed
  | noRoom _ full => omega
  | parsed again =>
    cases fetched.symm.trans again
    exact ⟨_, rfl⟩

theorem paths_use (cache : ParseCache) (entry : ParseEntry) :
    (cache.use entry).paths = cache.paths.filter (· != entry.path) ++ [entry.path] := by
  rw [paths, use, List.map_append, paths, List.filter_map]
  rfl

theorem paths_takeIn (parser : SourceParser) (cache : ParseCache) (path : Text) (content : Bytes) (modified : Int) :
    (cache.takeIn parser path content modified).paths =
      cache.paths.drop (cache.paths.length + 1 - cache.maxFiles.toNat) ++ [path] := by
  rw [paths, takeIn, List.map_append, paths, List.map_drop, List.length_map]
  rfl

/-- What a call makes of the cache, whether it finds its entry or makes it. -/
structure Serves (cache : ParseCache) (call : ParseCall) (contents : Text → Bytes × Int)
    (entry : ParseEntry) (after : ParseCache) : Prop where
  limit : after.maxFiles = cache.maxFiles
  size : after.maxMegabytes = cache.maxMegabytes
  own : entry.path = call.path
  modified : entry.modified = (contents call.path).2
  entries : ∀ other ∈ after.entries,
    other = entry ∨ other ∈ cache.entries ∧ other.path ≠ call.path
  counted : after.hits + after.misses = cache.hits + cache.misses + 1
  parsed : after.parsed + cache.misses = cache.parsed + after.misses
  grown : cache.parsed ≤ after.parsed
  stamp : entry ∈ cache.entries ∨ entry.file.stamp < after.parsed

theorem serves_use {entry : ParseEntry} (member : entry ∈ cache.entries)
    (own : entry.path = call.path) (modified : entry.modified = (contents call.path).2) :
    cache.Serves call contents entry { cache.use entry with hits := cache.hits + 1 } where
  limit := rfl
  size := rfl
  own := own
  modified := modified
  entries := by
    intro other kept
    simp only [use, List.mem_append, List.mem_filter, bne_iff_ne, List.mem_singleton] at kept
    rw [← own]
    exact kept.symm
  counted := Nat.add_right_comm _ _ _
  parsed := rfl
  grown := Nat.le_refl _
  stamp := .inl member

theorem serves_takeIn (absent : call.path ∉ cache.paths) : cache.Serves call contents
    ⟨call.path, .ofContent parser cache.parsed call.path (contents call.path).1, (contents call.path).2⟩
    (cache.takeIn parser call.path (contents call.path).1 (contents call.path).2) where
  limit := rfl
  size := rfl
  own := rfl
  modified := rfl
  entries := by
    intro other kept
    rcases List.mem_append.mp kept with kept | new
    · have member := List.mem_of_mem_drop kept
      exact .inr ⟨member, fun same => absent (same ▸ List.mem_map_of_mem member)⟩
    · exact .inl (List.mem_singleton.mp new)
  counted := rfl
  parsed := Nat.add_right_comm _ _ _
  grown := Nat.le_succ _
  stamp := .inr (Nat.lt_succ_self _)

section

variable (steady : call.Steady contents cache.maxMegabytes) (room : 0 < cache.maxFiles)
  (modified : ∀ entry ∈ cache.entries, entry.modified = (contents entry.path).2)

include steady room modified

theorem parse_steady :
    (∃ entry ∈ cache.entries, entry.path = call.path ∧ cache.parse parser call.files call.path =
      (.parsed entry.file [], { cache.use entry with hits := cache.hits + 1 })) ∨
    (call.path ∉ cache.paths ∧ ∃ faults, cache.parse parser call.files call.path =
      (.parsed (.ofContent parser cache.parsed call.path (contents call.path).1) faults,
        cache.takeIn parser call.path (contents call.path).1 (contents call.path).2)) := by
  cases found : cache.entry? call.path with
  | some entry =>
    obtain ⟨member, same⟩ := mem_of_find?_key found
    have read := steady.read
    rw [← same] at read
    have fresh : isFresh call.files entry = true :=
      isFresh_iff.mpr ⟨_, _, read, Int.le_of_eq (modified entry member).symm⟩
    exact .inl ⟨entry, member, same, parse_of_kept found fresh⟩
  | none =>
    have absent : call.path ∉ cache.paths := by
      intro member
      obtain ⟨entry, kept, same⟩ := List.mem_map.mp member
      exact find?_key_none.mp found entry kept same
    have fetched := fetch_eq_ok_iff.mpr ⟨steady.read, steady.fits⟩
    exact .inr ⟨absent, parse_of_absent absent fetched room⟩

theorem paths_parse (few : cache.paths.length ≤ cache.maxFiles.toNat) :
    (cache.parse parser call.files call.path).2.paths =
      (cache.paths.filter (· != call.path) ++ [call.path]).rtake cache.maxFiles.toNat := by
  rcases parse_steady steady room modified with ⟨entry, member, same, parsed⟩ | ⟨absent, _, parsed⟩
  · rw [parsed, ← same]
    have fewer : (cache.paths.filter (· != entry.path)).length < cache.paths.length :=
      List.length_filter_lt_length_iff_exists.mpr
        ⟨entry.path, List.mem_map_of_mem member, by simp⟩
    have short : (cache.paths.filter (· != entry.path) ++ [entry.path]).length ≤
        cache.maxFiles.toNat := by
      rw [List.length_append, List.length_singleton]
      omega
    rw [rtake_of_length_le short]
    exact paths_use cache entry
  · have others : cache.paths.filter (· != call.path) = cache.paths := by
      refine List.filter_eq_self.mpr fun path member => ?_
      simpa using ne_of_mem_of_not_mem member absent
    rw [parsed, others, paths_takeIn, List.rtake, List.length_append, List.length_singleton,
      List.drop_append_of_le_length (by omega)]

theorem parse_serves :
    ∃ entry faults after, cache.parse parser call.files call.path = (.parsed entry.file faults, after) ∧
      cache.Serves call contents entry after := by
  rcases parse_steady steady room modified with
    ⟨entry, member, own, parsed⟩ | ⟨absent, faults, parsed⟩
  · exact ⟨entry, [], _, parsed, serves_use member own (own ▸ modified entry member)⟩
  · exact ⟨_, faults, _, parsed, serves_takeIn absent⟩

end

end ParseCache

structure ParseSession where
  cache : ParseCache
  answers : List (Text × ParseOutcome)

namespace ParseSession

def ask (parser : SourceParser) (session : ParseSession) (call : ParseCall) : ParseSession :=
  let (outcome, cache) := session.cache.parse parser call.files call.path
  ⟨cache, session.answers ++ [(call.path, outcome)]⟩

def run (parser : SourceParser) (maxFiles megabytes : Int) (calls : List ParseCall) : ParseSession :=
  calls.foldl (ask parser) ⟨.empty maxFiles megabytes, []⟩

def last? (session : ParseSession) (path : Text) : Option ParsedFile :=
  (session.answers.reverse.find? (·.1 == path)).bind (·.2.file?)

variable {parser : SourceParser} {session : ParseSession} {call : ParseCall} {contents : Text → Bytes × Int}
  {maxFiles megabytes : Int} {calls : List ParseCall}

theorem run_concat (parser : SourceParser) (maxFiles megabytes : Int) (calls : List ParseCall) (call : ParseCall) :
    run parser maxFiles megabytes (calls ++ [call]) = (run parser maxFiles megabytes calls).ask parser call := by
  rw [run, List.foldl_append]
  rfl

theorem last?_ask (parser : SourceParser) (session : ParseSession) (call : ParseCall) (path : Text) :
    (session.ask parser call).last? path = if call.path = path then
      (session.cache.parse parser call.files call.path).1.file? else session.last? path := by
  rw [last?, ask, List.reverse_concat]
  by_cases same : call.path = path
  · rw [List.find?_cons_of_pos (by simpa using same), if_pos same]
    rfl
  · rw [List.find?_cons_of_neg (by simpa using same), if_neg same]
    rfl

/-- What a session keeps up while the files it reads are not written. -/
structure Tracks (session : ParseSession) (contents : Text → Bytes × Int)
    (maxFiles megabytes : Int) : Prop where
  limit : session.cache.maxFiles = maxFiles
  size : session.cache.maxMegabytes = megabytes
  paths : session.cache.paths = lastUsed maxFiles.toNat (session.answers.map (·.1))
  modified : ∀ entry ∈ session.cache.entries, entry.modified = (contents entry.path).2
  kept : ∀ entry ∈ session.cache.entries, session.last? entry.path = some entry.file
  counted : session.cache.hits + session.cache.misses = session.answers.length
  parsed : session.cache.parsed = session.cache.misses
  stamps : ∀ answer ∈ session.answers, ∀ file ∈ answer.2.file?, file.stamp < session.cache.parsed

theorem answers_ask (parser : SourceParser) (session : ParseSession) (call : ParseCall) :
    (session.ask parser call).answers = session.answers ++
      [(call.path, (session.cache.parse parser call.files call.path).1)] := rfl

theorem cache_ask (parser : SourceParser) (session : ParseSession) (call : ParseCall) :
    (session.ask parser call).cache = (session.cache.parse parser call.files call.path).2 := rfl

theorem exists_answer_of_last? {path : Text} {file : ParsedFile}
    (last : session.last? path = some file) :
    ∃ answer ∈ session.answers, file ∈ answer.2.file? := by
  obtain ⟨answer, found, holds⟩ := Option.bind_eq_some_iff.mp last
  exact ⟨answer, List.mem_reverse.mp (List.mem_of_find?_eq_some found), holds⟩

theorem Tracks.ask (tracks : session.Tracks contents maxFiles megabytes) (room : 1 ≤ maxFiles)
    (steady : call.Steady contents megabytes) :
    (session.ask parser call).Tracks contents maxFiles megabytes := by
  obtain ⟨rfl, rfl, paths, modified, kept, counted, parsedMisses, stamps⟩ := tracks
  obtain ⟨entry, faults, after, parsed, serves⟩ :=
    ParseCache.parse_serves steady room modified
  have cacheAfter : (session.ask parser call).cache = after := by rw [cache_ask, parsed]
  have fileStamp : entry.file.stamp < after.parsed := by
    -- A file that is kept has been returned before.
    rcases serves.stamp with member | new
    · obtain ⟨answer, given, holds⟩ := exists_answer_of_last? (kept entry member)
      exact Nat.lt_of_lt_of_le (stamps answer given _ holds) serves.grown
    · exact new
  refine ⟨cacheAfter ▸ serves.limit, cacheAfter ▸ serves.size, ?_, ?_, ?_, ?_, ?_, ?_⟩
  · have few : session.cache.paths.length ≤ session.cache.maxFiles.toNat :=
      paths ▸ length_lastUsed_le _ _
    rw [cache_ask, ParseCache.paths_parse steady room modified few, answers_ask, List.map_append,
      List.map_singleton, lastUsed_concat, paths]
  · intro other member
    rcases serves.entries other (cacheAfter ▸ member) with rfl | ⟨before, _⟩
    · rw [serves.modified, serves.own]
    · exact modified other before
  · intro other member
    rw [last?_ask, parsed]
    rcases serves.entries other (cacheAfter ▸ member) with rfl | ⟨before, differs⟩
    · rw [if_pos serves.own.symm]
      rfl
    · rw [if_neg differs.symm]
      exact kept other before
  · rw [cacheAfter, serves.counted, counted, answers_ask, List.length_append,
      List.length_singleton]
  · have balance := serves.parsed
    rw [cacheAfter]
    omega
  · intro answer given file holds
    rw [answers_ask, parsed] at given
    rw [cacheAfter]
    rcases List.mem_append.mp given with given | given
    · exact Nat.lt_of_lt_of_le (stamps answer given file holds) serves.grown
    · obtain rfl := List.mem_singleton.mp given
      obtain rfl := Option.mem_some.mp holds
      exact fileStamp

end ParseSession

end TemplateTypes
