import RuntimeRegistry.Claiming
import RuntimeRegistry.Deaths
import RuntimeRegistry.Generations
/-!
# What the calls of a worker write

The records that a worker's registrations read and write, seen as functions from ids,
so that a registration is one update of one function. A death is told by what it does
to each record.
-/
open Lib

namespace RuntimeRegistry

@[ext] structure Shelves where
  runtimes : RuntimeInstanceId → Option RuntimeDescriptor
  services : ServiceId → Option ServiceDescriptor
  endpoints : EndpointId → Option EndpointDescriptor
  capabilities : CapabilityId → Option CapabilityDescriptor
  instances : ServiceInstanceId → Option ServiceInstance

namespace Registry

variable {r t : Registry} {env : AuthorityEnvelope}

def shelves (r : Registry) : Shelves where
  runtimes k := r.runtime_instances[k]?
  services k := r.services[k]?
  endpoints k := r.endpoints[k]?
  capabilities k := r.capabilities[k]?
  instances k := r.instances[k]?

theorem shelf_insert {tag : IdTag} {ρ : Type} (m : Map tag ρ) (id : Id tag) (x : ρ) :
    (fun k => (m.insert id x)[k]?) = Function.update (fun k => m[k]?) id (some x) := by
  funext k
  by_cases hk : k = id
  · rw [hk, Function.update_self, Std.ExtTreeMap.getElem?_insert_self]
  · rw [Function.update_of_ne hk, Std.ExtTreeMap.getElem?_insert, if_neg (by simpa using Ne.symm hk)]

theorem shelf_kept {tag : IdTag} {ρ : Type} {m : Map tag ρ} {id : Id tag} {x : ρ} (h : m[id]? = some x) :
    (fun k => m[k]?) = Function.update (fun k => m[k]?) id (some x) := by
  rw [← h, Function.update_eq_self]

theorem shelves_rebuild_indexes (r : Registry) : r.rebuild_indexes.shelves = r.shelves := by
  obtain ⟨_, _, _, _, h⟩ := rebuild_indexes_writes r
  rw [h]
  rfl

/-! ## Registrations of descriptors -/

section
variable {tag : IdTag} {gen : GenTag} {ρ : Type}

/-- What is stored under the id of the record is the record itself, or older. -/
def Admits (D : Domain tag gen ρ) (r : Registry) (x : ρ) : Prop :=
  ∀ current, (D.table r)[D.id x]? = some current → current = x ∨ D.generation current < D.generation x

/-- A registration that is admitted leaves the shelves `S`, if its three ways to go do. -/
theorem registerRecord_shelves (D : Domain tag gen ρ) {x : ρ} {S : Shelves} (ha : r.Accepts env)
    (hplain : r.tombstones = ∅) (hnamed : D.withId = none ∨ (D.id x).value ≠ 0) (hsame : D.same x x = true)
    (hadmits : Admits D r x) (hkept : (D.table r)[D.id x]? = some x → r.shelves = S)
    (hreplace : ∀ current, (D.commit x (D.replace current x r)).2.shelves = S ∧
      (D.commit x (D.replace current x r)).2.next_id = r.next_id)
    (hinsert : (D.commit x (D.insert x r)).2.shelves = S ∧ (D.commit x (D.insert x r)).2.next_id = r.next_id) :
    ∃ t, registerRecord D r x env = (.ok (D.id x), t) ∧ t.shelves = S ∧ t.next_id = r.next_id := by
  have hfenced : D.fenced x r = none := by
    have hcovers : ∀ kind target floor, r.covered_by_tombstone kind target floor = false := by
      intro kind target floor
      simp [covered_by_tombstone, hplain]
    simp [Domain.fenced, hcovers]
  unfold registerRecord
  rw [authorized_accepted ha]
  rcases hcurrent : (D.table r)[D.id x]? with _ | current
  · refine ⟨(D.commit x (D.insert x r)).2, ?_, hinsert⟩
    simp only [hfenced, Domain.assign_named hnamed]
    rfl
  · rcases hadmits current hcurrent with rfl | hlt
    · exact ⟨r, by simp [hsame], hkept hcurrent, rfl⟩
    · refine ⟨(D.commit x (D.replace current x r)).2, ?_, hreplace current⟩
      simp only [hlt.ne', decide_false, Bool.false_and, Bool.false_eq_true, if_false, if_neg hlt.not_ge]
      rfl

end

theorem register_runtime_shelves (rt : RuntimeDescriptor) (ha : r.Accepts env) (hplain : r.tombstones = ∅)
    (hnamed : rt.runtime_instance.value ≠ 0) (hsame : (rt == rt) = true) (hadmits : Admits runtimes_ r rt) :
    ∃ t, r.register_runtime rt env = (.ok rt.runtime_instance, t) ∧
      t.shelves = { r.shelves with runtimes := Function.update r.shelves.runtimes rt.runtime_instance (some rt) } ∧
      t.next_id = r.next_id := by
  have hput := shelf_insert r.runtime_instances rt.runtime_instance rt
  refine registerRecord_shelves runtimes_ ha hplain (.inr hnamed) hsame hadmits (fun h => ?_) (fun _ => ⟨?_, rfl⟩) ⟨?_, rfl⟩
  · exact congrArg (fun s => { r.shelves with runtimes := s }) (shelf_kept h)
  · exact congrArg (fun s => { r.shelves with runtimes := s }) hput
  · exact congrArg (fun s => { r.shelves with runtimes := s }) hput

theorem register_service_shelves (svc : ServiceDescriptor) (ha : r.Accepts env) (hplain : r.tombstones = ∅)
    (hsame : (svc == svc) = true) (hadmits : Admits services_ r svc) :
    ∃ t, r.register_service svc env = (.ok (), t) ∧
      t.shelves = { r.shelves with services := Function.update r.shelves.services svc.service_id (some svc) } ∧
      t.next_id = r.next_id := by
  have hput := shelf_insert r.services svc.service_id svc
  have hnext : ∀ s : Registry, s.rebuild_indexes.next_id = s.next_id := by
    intro s
    obtain ⟨_, _, _, _, h⟩ := rebuild_indexes_writes s
    rw [h]
  obtain ⟨t, ht, hshelves, hid⟩ := registerRecord_shelves services_ (S := { r.shelves with
      services := Function.update r.shelves.services svc.service_id (some svc) }) ha hplain (.inl rfl) hsame hadmits
    (fun h => congrArg (fun s => { r.shelves with services := s }) (shelf_kept h))
    (fun _ => ⟨(shelves_rebuild_indexes _).trans (congrArg (fun s => { r.shelves with services := s }) hput), hnext _⟩)
    ⟨(shelves_rebuild_indexes _).trans (congrArg (fun s => { r.shelves with services := s }) hput), hnext _⟩
  exact ⟨t, by rw [register_service, ht]; rfl, hshelves, hid⟩

theorem register_endpoint_shelves (ep : EndpointDescriptor) (ha : r.Accepts env) (hplain : r.tombstones = ∅)
    (hnamed : ep.endpoint_id.value ≠ 0) (hadmits : Admits endpoints_ r ep) :
    ∃ t, r.register_endpoint ep env = (.ok ep.endpoint_id, t) ∧
      t.shelves = { r.shelves with endpoints := Function.update r.shelves.endpoints ep.endpoint_id (some ep) } ∧
      t.next_id = r.next_id := by
  have hput := shelf_insert r.endpoints ep.endpoint_id ep
  refine registerRecord_shelves endpoints_ ha hplain (.inr hnamed) (by simp [endpoints_]) hadmits (fun h => ?_)
    (fun _ => ⟨?_, rfl⟩) ⟨?_, rfl⟩
  · exact congrArg (fun s => { r.shelves with endpoints := s }) (shelf_kept h)
  · exact congrArg (fun s => { r.shelves with endpoints := s }) hput
  · exact congrArg (fun s => { r.shelves with endpoints := s }) hput

theorem register_capability_shelves (cap : CapabilityDescriptor) (ha : r.Accepts env) (hplain : r.tombstones = ∅)
    (hnamed : cap.capability_id.value ≠ 0) (hsame : (cap == cap) = true) (hadmits : Admits capabilities_ r cap) :
    ∃ t, r.register_capability cap env = (.ok cap.capability_id, t) ∧
      t.shelves = { r.shelves with capabilities := Function.update r.shelves.capabilities cap.capability_id (some cap) } ∧
      t.next_id = r.next_id := by
  have hput := shelf_insert r.capabilities cap.capability_id cap
  refine registerRecord_shelves capabilities_ ha hplain (.inr hnamed) hsame hadmits (fun h => ?_)
    (fun _ => ⟨?_, rfl⟩) ⟨?_, rfl⟩
  · exact congrArg (fun s => { r.shelves with capabilities := s }) (shelf_kept h)
  · exact congrArg (fun s => { r.shelves with capabilities := s }) hput
  · exact congrArg (fun s => { r.shelves with capabilities := s }) hput

/-! ## Registration of an instance -/

/-- What the registration of an instance leaves of the others of its service. -/
def Succeeds (service : ServiceId) (old new : Option ServiceInstance) : Prop :=
  new = old ∨ ∃ current, old = some current ∧ current.service_id = service ∧
    new = some { current with lifecycle := Lifecycle.SUPERSEDED }

theorem shelves_superseding (r : Registry) (scan : List ServiceInstanceId) (inst : ServiceInstance) :
    ∃ stored, (r.superseding scan inst).shelves = { r.shelves with instances := stored } ∧
      ∀ k, Succeeds inst.service_id (r.shelves.instances k) (stored k) := by
  unfold superseding
  rcases hcurrent : r.currentInstance scan inst.service_id with _ | ⟨id, current⟩
  · exact ⟨r.shelves.instances, rfl, fun _ => .inl rfl⟩
  · obtain ⟨hi, hservice, _⟩ := currentInstance_some hcurrent
    have hput := shelf_insert r.instances id { current with lifecycle := Lifecycle.SUPERSEDED }
    refine ⟨_, congrArg (fun s => { r.shelves with instances := s }) hput, fun k => ?_⟩
    by_cases hk : k = id
    · rw [hk, Function.update_self]
      exact .inr ⟨current, hi, hservice, rfl⟩
    · rw [Function.update_of_ne hk]
      exact .inl rfl

theorem shelves_storeInstance (r : Registry) (copy : ServiceInstance) : (r.storeInstance copy).shelves = { r.shelves with
    instances := Function.update r.shelves.instances copy.instance_id (some (r.reclassify_lifecycle copy)) } := by
  have hinstances : (r.storeInstance copy).shelves.instances =
      Function.update r.shelves.instances copy.instance_id (some (r.reclassify_lifecycle copy)) := by
    funext k
    have hstored := r.storeInstance_instances copy k
    by_cases hk : k = copy.instance_id
    · subst hk
      rw [Function.update_self]
      rwa [if_pos rfl] at hstored
    · rw [Function.update_of_ne hk]
      rwa [if_neg (Ne.symm hk)] at hstored
  have hrest := shelves_rebuild_indexes (Registry.commit_registry_generation { r with
    instances := (r.instances.insert copy.instance_id copy).insert copy.instance_id (r.reclassify_lifecycle copy)
    instance_history := r.instance_history ++ [copy]
    accounting := { r.accounting with
      service_instances := r.accounting.service_instances + 1, registrations := r.accounting.registrations + 1 } })
  rw [← hinstances]
  exact hrest.trans (congrArg (fun s => { r.shelves with instances := s }) (congrArg Shelves.instances hrest).symm)

/-- An instance without an id, whose service is registered, whose only endpoint is free and
which is newer than the others of the service, is stored under the next id. -/
theorem register_instance_shelves {inst : ServiceInstance} {eid : EndpointId} {ep : EndpointDescriptor}
    (ha : r.Accepts env) (hplain : r.tombstones = ∅) (hid : inst.instance_id = {}) (hservice : inst.service_id ∈ r.services)
    (hnewer : ∀ id current, r.IsCurrent inst.service_id id current → current.instance_generation < inst.instance_generation)
    (heid : inst.endpoints = [eid]) (hep : r.endpoints[eid]? = some ep) (hfree : ep.service_instance = {})
    (scan : List ServiceInstanceId) :
    ∃ t stored, r.register_instance scan inst env = (.ok ⟨r.next_id⟩, t) ∧ t.next_id = r.next_id + 1 ∧
      (∀ k, Succeeds inst.service_id (r.shelves.instances k) (stored k)) ∧
      t.shelves = { r.shelves with
        endpoints := Function.update r.shelves.endpoints eid (some { ep with service_instance := ⟨r.next_id⟩ })
        instances := Function.update stored ⟨r.next_id⟩
          (some (t.reclassify_lifecycle { inst with instance_id := ⟨r.next_id⟩ })) } := by
  have hassigned : r.assignedId inst = ⟨r.next_id⟩ := by rw [assignedId, hid]; rfl
  have hnext : r.assignedNext inst = r.next_id + 1 := by rw [assignedNext, hid]; rfl
  have hclaimable : ∀ s : Registry, s.endpoints = r.endpoints → ∀ e ∈ inst.endpoints, s.claimable ⟨r.next_id⟩ e := by
    intro s hs e he
    rw [heid, List.mem_singleton] at he
    simp [claimable, hs, he, hep, hfree]
  have hadm : r.Admissible scan inst := by
    refine ⟨hservice, ?_⟩
    rw [hassigned]
    rcases hcurrent : r.currentInstance scan inst.service_id with _ | ⟨id, current⟩
    · exact ⟨by simp [covered_by_tombstone, hplain], hclaimable r rfl⟩
    · exact ⟨hnewer id current (currentInstance_some hcurrent), hclaimable _ rfl⟩
  obtain ⟨stored, hsuper, hstored⟩ := r.shelves_superseding scan inst
  set s := r.superseding scan inst with hs
  have hclaimed : (s.claimed ⟨r.next_id⟩ [eid]).shelves = { s.shelves with
      endpoints := Function.update r.shelves.endpoints eid (some { ep with service_instance := ⟨r.next_id⟩ }) } := by
    have hsame : s.endpoints = r.endpoints := (r.superseding_evidence scan inst).endpoints
    have hput := shelf_insert r.endpoints eid { ep with service_instance := (⟨r.next_id⟩ : ServiceInstanceId) }
    have hone : claimedEndpoint ⟨r.next_id⟩ r.endpoints eid =
        r.endpoints.insert eid { ep with service_instance := ⟨r.next_id⟩ } := by
      simp [claimedEndpoint, hep, hfree]
    refine congrArg (fun e => { s.shelves with endpoints := e }) (Eq.trans ?_ hput)
    funext k
    rw [← hone, ← hsame]
    rfl
  have hsnext : s.next_id = r.next_id + 1 := by
    rw [hs, superseding, hnext]
    split <;> rfl
  refine ⟨(s.claimed ⟨r.next_id⟩ inst.endpoints).storeInstance { inst with instance_id := ⟨r.next_id⟩ }, stored, ?_, ?_,
    hstored, ?_⟩
  · rw [register_instance_admitted ha hadm, hassigned]
  · have hkept : ∀ (u : Registry) (copy : ServiceInstance), (u.storeInstance copy).next_id = u.next_id := by
      intro u copy
      unfold storeInstance
      obtain ⟨_, _, _, _, h⟩ := rebuild_indexes_writes (Registry.commit_registry_generation _)
      rw [h]
      rfl
    rw [hkept]
    exact hsnext
  · rw [(storeInstance_evidence _ _).reclassify, shelves_storeInstance, heid, hclaimed, hsuper]

/-! ## Deaths -/

/-- What the death of a boot leaves of a record of an instance. -/
def Falls (boot : WorkerBootId) (old new : Option ServiceInstance) : Prop :=
  new = old ∨ ∃ inst, old = some inst ∧ inst.boot = boot ∧ new = some (deadInstance inst)

/-- What a death leaves of the shelves: instances of the boot fall, and endpoints that are
bound to them are released. -/
structure Fallen (boot : WorkerBootId) (S T : Shelves) : Prop where
  runtimes : T.runtimes = S.runtimes
  services : T.services = S.services
  capabilities : T.capabilities = S.capabilities
  instances : ∀ k, Falls boot (S.instances k) (T.instances k)
  endpoints : ∀ eid, T.endpoints eid = S.endpoints eid ∨ ∃ ep inst, S.endpoints eid = some ep ∧
    S.instances ep.service_instance = some inst ∧ inst.boot = boot ∧ T.endpoints eid = some (releasedEndpoint ep)

theorem Fallen.refl (boot : WorkerBootId) (S : Shelves) : Fallen boot S S :=
  ⟨rfl, rfl, rfl, fun _ => .inl rfl, fun _ => .inl rfl⟩

theorem revoke_fallen (hkey : Table.All wellKeyed.inst r.instances) (boot : WorkerBootId) :
    Fallen boot r.shelves (r.revoke_boot_internal boot).shelves := by
  obtain ⟨_, _, _, _, hwrites⟩ := revoke_writes r boot
  refine ⟨?_, ?_, ?_, fun k => ?instances, fun eid => ?endpoints⟩
  · rw [hwrites]; rfl
  · rw [hwrites]; rfl
  · rw [hwrites]; rfl
  case instances =>
    have hk : (r.revoke_boot_internal boot).shelves.instances k = _ := revoke_instances r boot k
    rcases hi : r.instances[k]? with _ | inst
    · exact .inl (by rw [hk, hi]; exact hi.symm)
    · by_cases hb : r.authority.is_boot_live boot = true ∧ inst.boot = boot
      · exact .inr ⟨inst, hi, hb.2, by rw [hk, hi, Option.map_some, if_pos hb.1, markDead, if_pos hb.2]⟩
      · refine .inl ?_
        have hsame : (if r.authority.is_boot_live boot then markDead boot inst else inst) = inst := by
          split_ifs with hlive
          · exact if_neg fun h => hb ⟨hlive, h⟩
          · rfl
        rw [hk, hi, Option.map_some, hsame]
        exact hi.symm
  case endpoints =>
    unfold revoke_boot_internal
    split_ifs with hlive
    · have hwalk : (r.instances.keys.foldl (revokeInstance boot)
          { r with authority := revokeAuthority r.authority boot }).shelves.endpoints eid = _ := walk_endpoints _ _ eid
      rcases hep : r.endpoints[eid]? with _ | ep
      · exact .inl (by rw [hwalk, hep]; exact hep.symm)
      rw [hep, Option.map_some] at hwalk
      split_ifs at hwalk with hheld
      · obtain ⟨id, _, inst, hi, hb, _, hbound⟩ := hheld
        rw [hkey id inst hi] at hbound
        exact .inr ⟨ep, inst, hep, hbound ▸ hi, hb, hwalk⟩
      · exact .inl (hwalk.trans hep.symm)
    · exact .inl rfl

/-- An adoption is the death of the boot that the worker is at, if it is at one. -/
theorem adopt_worker_fallen (hkey : Table.All wellKeyed.inst r.instances) (worker : WorkerId) :
    ∃ boot, (boot = {} ∨ r.authority.current_boot[worker]? = some boot) ∧
      Fallen boot r.shelves (r.adopt_worker worker).2.shelves := by
  refine adopt_worker_rule (P := fun t => ∃ boot, (boot = {} ∨ r.authority.current_boot[worker]? = some boot) ∧
    Fallen boot r.shelves t.shelves) (fun _ => ⟨{}, .inl rfl, .refl _ _⟩) fun prev hprev _ => ?_
  exact ⟨prev, .inr hprev, revoke_fallen (r := { r with next_boot := r.next_boot + 1 }) hkey prev⟩

end Registry

end RuntimeRegistry
