import RuntimeRegistry.Lib.Indexes
import RuntimeRegistry.Discovery
/-!
# The indexes and the check of the invariants

`rebuild_indexes` fills the four indexes from the instances, so what they list is
told by the records alone. `check_invariants` compares one of them with the
instances, and follows the references of every instance.
-/
open Lib Lib.Table

namespace RuntimeRegistry

namespace Registry

variable {r : Registry}

/-! ## Rebuilding -/

/-- The kind of the service of an instance, where the service is stored. -/
def kindOf (r : Registry) (inst : ServiceInstance) : Option (Enum ServiceKind) := r.services[inst.service_id]?.map (·.kind)

/-- The indexes that the instances give. -/
def indexed (r : Registry) : Registry :=
  { r with
    index_by_service := Index.fill (fun inst => some inst.service_id) (·.instance_id) (values r.instances) ∅
    index_by_boot := Index.fill (fun inst => some inst.boot) (·.instance_id) (values r.instances) ∅
    index_by_node := Index.fill (fun inst => some inst.node) (·.instance_id) (values r.instances) ∅
    index_by_kind := Index.fill r.kindOf (·.service_id) (values r.instances) ∅ }

/-- The loop of `rebuild_indexes` fills each index on its own. -/
theorem foldl_indexInstance (xs : List ServiceInstance) (s : Registry) :
    xs.foldl indexInstance s =
      { s with
        index_by_service := Index.fill (fun inst => some inst.service_id) (·.instance_id) xs s.index_by_service
        index_by_boot := Index.fill (fun inst => some inst.boot) (·.instance_id) xs s.index_by_boot
        index_by_node := Index.fill (fun inst => some inst.node) (·.instance_id) xs s.index_by_node
        index_by_kind := Index.fill s.kindOf (·.service_id) xs s.index_by_kind } := by
  induction xs generalizing s with
  | nil => rfl
  | cons x xs ih =>
    rw [List.foldl_cons, ih]
    have hkind : (s.indexInstance x).kindOf = s.kindOf := rfl
    have hfill : Index.fill s.kindOf (·.service_id) (x :: xs) s.index_by_kind =
        Index.fill s.kindOf (·.service_id) xs (s.indexInstance x).index_by_kind := by
      simp only [Index.fill, List.foldl_cons, indexInstance, kindOf]
      rcases s.services[x.service_id]? with _ | svc <;> rfl
    rw [hkind, hfill]
    rfl

theorem rebuild_indexes_eq (r : Registry) : r.rebuild_indexes = r.indexed :=
  foldl_indexInstance (values r.instances) _

/-- Every index is the one that the records give. -/
def Indexed (r : Registry) : Prop := r.rebuild_indexes = r

/-! ## The check -/

def render_id (v : UInt64) : Text := to_string v

/-- One round of the loop of `instance_index_by_service`. -/
def groupInstance (r : Registry) (m : Map .ServiceId (List ServiceInstanceId)) (k : ServiceInstanceId) :
    Map .ServiceId (List ServiceInstanceId) :=
  match r.instances[k]? with
  | some inst => m.insert inst.service_id (m.getD inst.service_id [] ++ [k])
  | none => m

/-- The ids of the instances by service, sorted, where the instances are walked in
the given order. -/
def instance_index_by_service (r : Registry) (scan : List ServiceInstanceId) : Map .ServiceId (List ServiceInstanceId) :=
  (scan.foldl r.groupInstance ∅).map fun _ ids => ids.insertionSort fun a b => a.value ≤ b.value

/-- One service of the first loop of `check_invariants`. -/
def serviceViolations (r : Registry) (sid : ServiceId) (ids : List ServiceInstanceId) : List Text :=
  let violation := text "service index disagrees with canonical records for " ++ render_id sid.value
  match r.index_by_service[sid]? with
  | none => [violation]
  | some set => if set.size ≠ ids.length then [violation] else []

/-- One instance of the second loop. -/
def instanceViolations (r : Registry) (inst : ServiceInstance) : List Text :=
  (if inst.service_id ∈ r.services then [] else [text "instance references unregistered service"]) ++
  (inst.endpoints.flatMap fun eid =>
    if eid ∈ r.endpoints then [] else [text "instance references unregistered endpoint"]) ++
  if inst.lifecycle = Lifecycle.AVAILABLE ∧
      (!r.authority.is_boot_live inst.boot ∨ inst.freshness ≠ Freshness.CURRENT) then
    [text "AVAILABLE instance has stale authority/freshness"]
  else []

/-- The instances are walked in the order `scan`, the services that they name in
the order `walk`. -/
def check_invariants (r : Registry) (walk : List ServiceId) (scan : List ServiceInstanceId) : List Text :=
  let idx := r.instance_index_by_service scan
  (walk.flatMap fun sid => match idx[sid]? with
    | some ids => r.serviceViolations sid ids
    | none => []) ++
  scan.flatMap fun k => match r.instances[k]? with
    | some inst => r.instanceViolations inst
    | none => []

/-- The check finds nothing, in whatever order the hash tables are walked. -/
def NoViolations (r : Registry) : Prop := ∀ walk scan, scan.Perm r.instances.keys →
  walk.Perm (r.instance_index_by_service scan).keys → r.check_invariants walk scan = []

/-! ## What the check finds -/

/-- What the check asks of the references of an instance. -/
structure Referenced (r : Registry) (inst : ServiceInstance) : Prop where
  service : inst.service_id ∈ r.services
  endpoints : ∀ eid ∈ inst.endpoints, eid ∈ r.endpoints
  available : inst.lifecycle = Lifecycle.AVAILABLE →
    r.authority.is_boot_live inst.boot = true ∧ inst.freshness = Freshness.CURRENT

theorem instanceViolations_nil {inst : ServiceInstance} : r.instanceViolations inst = [] ↔ r.Referenced inst := by
  have hservice : (if inst.service_id ∈ r.services then [] else [text "instance references unregistered service"]) = [] ↔
      inst.service_id ∈ r.services := by
    split_ifs with h <;> simp [h]
  have hendpoint : ∀ eid, (if eid ∈ r.endpoints then [] else [text "instance references unregistered endpoint"]) = [] ↔
      eid ∈ r.endpoints := by
    intro eid
    split_ifs with h <;> simp [h]
  have havailable : (if inst.lifecycle = Lifecycle.AVAILABLE ∧
      (!r.authority.is_boot_live inst.boot ∨ inst.freshness ≠ Freshness.CURRENT) then
      [text "AVAILABLE instance has stale authority/freshness"] else []) = [] ↔
      (inst.lifecycle = Lifecycle.AVAILABLE →
        r.authority.is_boot_live inst.boot = true ∧ inst.freshness = Freshness.CURRENT) := by
    rw [ite_eq_right_iff]
    simp only [List.cons_ne_nil, imp_false, not_and, not_or, Bool.not_eq_true, Bool.not_eq_false', ne_eq, not_not]
  rw [instanceViolations, List.append_eq_nil_iff, List.append_eq_nil_iff, List.flatMap_eq_nil_iff, hservice, havailable]
  simp only [hendpoint]
  constructor
  · rintro ⟨⟨hs, he⟩, ha⟩
    exact ⟨hs, he, ha⟩
  · intro h
    exact ⟨⟨h.service, h.endpoints⟩, h.available⟩

/-- The service of the instance under the key. -/
def serviceOf (r : Registry) (k : ServiceInstanceId) : Option ServiceId := r.instances[k]?.map (·.service_id)

theorem foldl_groupInstance (scan : List ServiceInstanceId) (m : Map .ServiceId (List ServiceInstanceId)) :
    scan.foldl r.groupInstance m = Grouping.group r.serviceOf scan m := by
  induction scan generalizing m with
  | nil => rfl
  | cons k scan ih =>
    rw [List.foldl_cons, ih, Grouping.group, Grouping.group, List.foldl_cons]
    congr 1
    unfold groupInstance serviceOf
    rcases r.instances[k]? with _ | inst <;> rfl

/-- The ids listed for a service are those of its instances, and there is one. -/
theorem instance_index_getElem? {scan : List ServiceInstanceId} {sid : ServiceId} {ids : List ServiceInstanceId}
    (h : (r.instance_index_by_service scan)[sid]? = some ids) :
    ids.length = (scan.filter fun k => r.serviceOf k = some sid).length ∧ ∃ k ∈ scan, r.serviceOf k = some sid := by
  rw [instance_index_by_service, foldl_groupInstance, Std.ExtTreeMap.getElem?_map, Option.map_eq_some_iff] at h
  obtain ⟨group, hgroup, rfl⟩ := h
  constructor
  · have hget : (Grouping.group r.serviceOf scan ∅).getD sid [] = scan.filter fun k => r.serviceOf k = some sid := by
      rw [Grouping.getD_group, Std.ExtTreeMap.getD_empty, List.nil_append]
    rw [Std.ExtTreeMap.getD_eq_getD_getElem?, hgroup, Option.getD_some] at hget
    rw [List.length_insertionSort, hget]
  · have hmem : sid ∈ Grouping.group r.serviceOf scan ∅ := by
      rw [Std.ExtTreeMap.mem_iff_isSome_getElem?, hgroup]
      rfl
    exact (Grouping.mem_group.1 hmem).resolve_right Std.ExtTreeMap.not_mem_empty

/-- In a table of instances under their own ids, a service has as many keys as records. -/
theorem count_service (hkey : wellKeyed.Holds r) {scan : List ServiceInstanceId} (hscan : scan.Perm r.instances.keys)
    (sid : ServiceId) : (scan.filter fun k => r.serviceOf k = some sid).length =
      ((values r.instances).filter fun inst => some inst.service_id = some sid).length := by
  rw [(hscan.filter _).length_eq, ← map_key_values hkey.instances, List.filter_map, List.length_map]
  congr 1
  refine List.filter_congr fun inst hinst => ?_
  obtain ⟨k, hk⟩ := mem_values.1 hinst
  have hid : inst.instance_id = k := hkey.instances k inst hk
  have hservice : r.serviceOf inst.instance_id = some inst.service_id := by
    rw [hid, serviceOf, hk]
    rfl
  simp only [Function.comp_apply, hservice]

/-- Where the indexes are the ones that the records give, the first loop finds nothing. -/
theorem serviceViolations_nil (hindex : r.Indexed) (hkey : wellKeyed.Holds r) {scan : List ServiceInstanceId}
    (hscan : scan.Perm r.instances.keys) {sid : ServiceId} {ids : List ServiceInstanceId}
    (h : (r.instance_index_by_service scan)[sid]? = some ids) : r.serviceViolations sid ids = [] := by
  obtain ⟨hlen, k, hk, hservice⟩ := instance_index_getElem? h
  rw [count_service hkey hscan] at hlen
  have hfilled : r.index_by_service =
      Index.fill (fun inst => some inst.service_id) (·.instance_id) (values r.instances) ∅ := by
    have h := congrArg (·.index_by_service) hindex
    rw [rebuild_indexes_eq] at h
    exact h.symm
  have hnodup : ((values r.instances).map (·.instance_id)).Nodup := by
    rw [map_key_values hkey.instances]
    exact r.instances.nodup_keys
  have hmem : sid ∈ r.index_by_service := by
    obtain ⟨inst, hinst, hsid⟩ := Option.map_eq_some_iff.1 hservice
    rw [hfilled, Index.mem_fill_key]
    exact .inl ⟨inst, mem_values.2 ⟨k, hinst⟩, congrArg some hsid⟩
  rw [Std.ExtTreeMap.mem_iff_isSome_getElem?] at hmem
  obtain ⟨set, hset⟩ := Option.isSome_iff_exists.1 hmem
  have hsize : set.size = ids.length := by
    rw [hlen, ← Index.size_fill hnodup, ← hfilled, Std.ExtTreeMap.getD_eq_getD_getElem?, hset, Option.getD_some]
  simp [serviceViolations, hset, hsize]

/-- Where the indexes are the ones that the records give, the check finds nothing
if every instance's references are in order, and only then. -/
theorem noViolations_iff (hindex : r.Indexed) (hkey : wellKeyed.Holds r) :
    r.NoViolations ↔ All (fun _ inst => r.Referenced inst) r.instances := by
  constructor
  · intro h k inst hi
    have hnil := h _ _ (.refl _) (.refl _)
    have hmem : k ∈ r.instances.keys := by
      rw [Std.ExtTreeMap.mem_keys, Std.ExtTreeMap.mem_iff_isSome_getElem?, hi]
      rfl
    have hinst := List.flatMap_eq_nil_iff.1 (List.append_eq_nil_iff.1 hnil).2 k hmem
    rw [hi] at hinst
    exact instanceViolations_nil.1 hinst
  · intro h walk scan hscan _
    refine List.append_eq_nil_iff.2 ⟨?_, ?_⟩
    · refine List.flatMap_eq_nil_iff.2 fun sid _ => ?_
      split
      · exact serviceViolations_nil hindex hkey hscan ‹_›
      · rfl
    · refine List.flatMap_eq_nil_iff.2 fun k _ => ?_
      split
      · exact instanceViolations_nil.2 (h k _ ‹_›)
      · rfl

end Registry

end RuntimeRegistry
