import TemplateTypes.Inference.Request
import TemplateTypes.Proofs.Json.RoundTrip

namespace TemplateTypes

open Text

namespace Json

def ofMap (map : BindingMap) : Json := .obj (map.map fun (name, t) => (name, .str t))

theorem plainMembers_texts (map : BindingMap) :
    PlainMembers (map.map fun (name, t) => (name, .str t)) := by
  induction map with
  | nil => trivial
  | cons entry more ih => exact ⟨trivial, ih⟩

theorem depth_ofMap (map : BindingMap) : (ofMap map).depth = 1 := by
  have flat : membersDepth (map.map fun (name, t) => (name, .str t)) = 0 := by
    induction map with
    | nil => rfl
    | cons entry more ih => simpa [membersDepth, depth] using ih
  rw [ofMap, depth, flat]

theorem plain_ofMap {map : BindingMap} (distinct : (map.map (·.1)).Nodup) : (ofMap map).Plain := by
  refine ⟨?_, plainMembers_texts map⟩
  rw [List.map_map]
  exact distinct

end Json

namespace InferenceRequest

theorem mapM_textMember (map : BindingMap) :
    (map.map fun (name, t) => (name, Json.str t)).mapM textMember = some map := by
  induction map with
  | nil => rfl
  | cons entry more ih =>
    rw [List.map_cons, List.mapM_cons, ih]
    rfl

variable {nesting : Nat}

theorem mapping_ofMap (label : Text) (map : BindingMap) :
    mapping nesting label (.ofMap map) = .ok map := by
  simp only [mapping, Json.ofMap, pure_bind, mapM_textMember]
  rfl

theorem mapping_write {map : BindingMap} (distinct : (map.map (·.1)).Nodup) (label : Text) :
    mapping nesting label (.str (Json.write (.ofMap map))) = .ok map := by
  have shallow : (Json.ofMap map).depth ≤ nesting + 1 := by
    rw [Json.depth_ofMap]
    omega
  have same : mapping nesting label (.str (Json.write (.ofMap map))) =
      mapping nesting label (.ofMap map) := by
    simp only [mapping, Json.read_write (Json.plain_ofMap distinct) shallow]
    rfl
  rw [same, mapping_ofMap]

variable {σ : Type}

theorem respond_congr {r q : InferenceRequest} (owner : q.owner = r.owner)
    (useService : q.useService = r.useService) (timeoutMs : q.timeoutMs = r.timeoutMs)
    (bindings : mapping q.nesting "bindings".toList q.bindings =
      mapping r.nesting "bindings".toList r.bindings)
    (kinds : mapping q.nesting "binding_kinds".toList q.kinds =
      mapping r.nesting "binding_kinds".toList r.kinds)
    (settings : Settings) (oracle : Option (Oracle σ)) (projectRoot : Text) (s : ProbingState σ) :
    q.respond settings oracle projectRoot s = r.respond settings oracle projectRoot s := by
  have kindMaps : kindMap q.nesting q.kinds = kindMap r.nesting r.kinds := by
    rw [kindMap, kinds, kindMap]
  simp only [respond, inferIn, prober?, owner, useService, timeoutMs, bindings, kindMaps]

/-- For the bindings and their kinds it makes no difference whether the maps themselves are given
    or their texts: both are read as the maps, in their order, and the request has the same
    response and leaves the same state. -/
theorem respond_of_texts {bindings kinds : BindingMap} (distinct : (bindings.map (·.1)).Nodup)
    (distinctKinds : (kinds.map (·.1)).Nodup) (owner : Text) (useService : Option Bool)
    (timeoutMs : Option Int) (nesting : Nat) (settings : Settings) (oracle : Option (Oracle σ))
    (projectRoot : Text) (s : ProbingState σ) :
    (∀ map ∈ [bindings, kinds], ∀ label, mapping nesting label (.ofMap map) = .ok map ∧
      mapping nesting label (.str (Json.write (.ofMap map))) = .ok map) ∧
    respond ⟨owner, .str (Json.write (.ofMap bindings)), .str (Json.write (.ofMap kinds)),
        useService, timeoutMs, nesting⟩ settings oracle projectRoot s =
      respond ⟨owner, .ofMap bindings, .ofMap kinds, useService, timeoutMs, nesting⟩ settings oracle
        projectRoot s := by
  have read : ∀ map ∈ [bindings, kinds], ∀ label, mapping nesting label (.ofMap map) = .ok map ∧
      mapping nesting label (.str (Json.write (.ofMap map))) = .ok map := by
    intro map member label
    refine ⟨mapping_ofMap label map, mapping_write ?_ label⟩
    rcases List.mem_pair.mp member with rfl | rfl
    · exact distinct
    · exact distinctKinds
  have agree : ∀ map ∈ [bindings, kinds], ∀ label,
      mapping nesting label (.str (Json.write (.ofMap map))) = mapping nesting label (.ofMap map) :=
    fun map member label => (read map member label).2.trans (read map member label).1.symm
  refine ⟨read, respond_congr ?_ ?_ ?_ ?_ ?_ settings oracle projectRoot s⟩
  iterate 3 rfl
  · exact agree bindings (by simp) _
  · exact agree kinds (by simp) _

/-- The names hold a quote, a backslash, a line end and a character beyond the first plane. -/
theorem respond_of_texts_escaped :
    let bindings : BindingMap := [(['"', '\\'], ['x']), (['\n', '😀'], [Char.ofNat 7])]
    let kinds : BindingMap := [(['"', '\\'], "output".toList)]
    let hover := "\x60\x60\x60ts\nconst x:  string | undefined\n\x60\x60\x60".toList
    let oracle := Oracle.replying ⟨some 5, .ok (some [.str hover])⟩
    let s : ProbingState Unit :=
      ⟨⟨⟨[], [([['p']], .directory)], none⟩, 7, 1, []⟩, .empty .default, 3, ()⟩
    let response := (respond ⟨"/p/a.ts".toList, .str (Json.write (.ofMap bindings)),
      .str (Json.write (.ofMap kinds)), none, none, 0⟩ Settings.default (some oracle) "/p".toList s).1
    (bindings.map (·.1)).Nodup ∧ (kinds.map (·.1)).Nodup ∧
    response = (respond ⟨"/p/a.ts".toList, .ofMap bindings, .ofMap kinds, none, none, 0⟩
      Settings.default (some oracle) "/p".toList s).1 ∧
    response = .ok ⟨[⟨['"', '\\'], "string".toList, true, .high, .languageService⟩,
      ⟨['\n', '😀'], "string".toList, true, .high, .languageService⟩], [], true,
      some ['/', 'p']⟩ := by
  intro bindings kinds hover oracle s response
  have distinct : (bindings.map (·.1)).Nodup := by decide
  have distinctKinds : (kinds.map (·.1)).Nodup := by decide
  have agree := (respond_of_texts distinct distinctKinds "/p/a.ts".toList none none 0
    Settings.default (some oracle) "/p".toList s).2
  have same := congrArg (·.1) agree
  refine ⟨distinct, distinctKinds, same, same.trans ?_⟩
  decide +kernel

end InferenceRequest

end TemplateTypes
