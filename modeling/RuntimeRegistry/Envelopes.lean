import RuntimeRegistry.Atomicity
/-!
# Which stale envelopes are refused

An envelope carries a generation for every kind of record, but the shared check
reads the epoch and the boot only. Three generations are compared elsewhere, in the
calls that take an instance, an endpoint or a lease by its id. A call refuses a
stale envelope just where one of its own checks refuses it.
-/
open Lib

namespace RuntimeRegistry

namespace Registry

variable {α β : Type} {r : Registry} {env : AuthorityEnvelope}

/-! ## Stale envelopes -/

/-- A generation is named, and the stored one is newer. -/
def Behind {g : GenTag} (named : Gen g) (stored : Option (Gen g)) : Prop :=
  named.value ≠ 0 ∧ ∃ current ∈ stored, named < current

def BehindService (r : Registry) (env : AuthorityEnvelope) (id : ServiceId) : Prop :=
  Behind env.service_generation (r.services[id]?.map (·.generation))

/-- Behind an instance, or behind its service. -/
def BehindInstance (r : Registry) (env : AuthorityEnvelope) (id : ServiceInstanceId) : Prop :=
  Behind env.service_instance_generation (r.instances[id]?.map (·.instance_generation)) ∨
    ∃ inst, r.instances[id]? = some inst ∧ r.BehindService env inst.service_id

def BehindRuntime (r : Registry) (env : AuthorityEnvelope) (id : RuntimeInstanceId) : Prop :=
  Behind env.runtime_generation (r.runtime_instances[id]?.map (·.generation))

def BehindEndpoint (r : Registry) (env : AuthorityEnvelope) (id : EndpointId) : Prop :=
  Behind env.endpoint_generation (r.endpoints[id]?.map (·.generation))

def BehindProtocol (r : Registry) (env : AuthorityEnvelope) (id : ProtocolId) : Prop :=
  Behind env.protocol_generation (r.protocols[id]?.map (·.generation))

def BehindBackend (r : Registry) (env : AuthorityEnvelope) (id : BackendId) : Prop :=
  Behind env.backend_generation (r.backends[id]?.map (·.generation))

def BehindDevice (r : Registry) (env : AuthorityEnvelope) (id : DeviceId) : Prop :=
  Behind env.device_generation (r.devices[id]?.map (·.generation))

def BehindCapability (r : Registry) (env : AuthorityEnvelope) (id : CapabilityId) : Prop :=
  Behind env.capability_generation (r.capabilities[id]?.map (·.generation))

def BehindLease (r : Registry) (env : AuthorityEnvelope) (id : LeaseId) : Prop :=
  Behind env.lease_generation (r.leases[id]?.map (·.generation))

/-- Behind the record that a tombstone or an invalidation names in text. -/
def BehindNamed (r : Registry) (env : AuthorityEnvelope) (target_kind target_text : Text) : Prop :=
  ∃ v, target_text = to_string v ∧
    (target_kind = text "ServiceId" ∧ r.BehindService env ⟨v⟩ ∨
      target_kind = text "ServiceInstanceId" ∧ r.BehindInstance env ⟨v⟩ ∨
      target_kind = text "RuntimeInstanceId" ∧ r.BehindRuntime env ⟨v⟩ ∨
      target_kind = text "EndpointId" ∧ r.BehindEndpoint env ⟨v⟩ ∨
      target_kind = text "ProtocolId" ∧ r.BehindProtocol env ⟨v⟩ ∨
      target_kind = text "BackendId" ∧ r.BehindBackend env ⟨v⟩ ∨
      target_kind = text "DeviceId" ∧ r.BehindDevice env ⟨v⟩ ∨
      target_kind = text "CapabilityId" ∧ r.BehindCapability env ⟨v⟩ ∨
      target_kind = text "LeaseId" ∧ r.BehindLease env ⟨v⟩)

/-- A registered instance replaces the record under its id, takes over from the
current instance of the service, and belongs to the service. -/
def BehindRegistration (r : Registry) (scan : List ServiceInstanceId) (env : AuthorityEnvelope) (inst : ServiceInstance) :
    Prop :=
  r.BehindService env inst.service_id ∨ r.BehindInstance env inst.instance_id ∨
    ∃ id current, r.currentInstance scan inst.service_id = some (id, current) ∧ r.BehindInstance env id

/-- The envelope is behind what the operation targets. -/
def BehindTarget (r : Registry) (scan : List ServiceInstanceId) : Op → Prop
  | .register_service svc env => r.BehindService env svc.service_id
  | .register_instance inst env => r.BehindRegistration scan env inst
  | .register_runtime rt env => r.BehindRuntime env rt.runtime_instance
  | .register_endpoint ep env => r.BehindEndpoint env ep.endpoint_id
  | .register_capability cap env => r.BehindCapability env cap.capability_id
  | .register_backend bd env => r.BehindBackend env bd.backend_id
  | .register_device dd env => r.BehindDevice env dd.device_id
  | .register_protocol pd env => r.BehindProtocol env pd.protocol_id
  | .update_health id _ env | .update_readiness id _ env | .update_freshness id _ env
  | .update_instance_reachability id _ env | .deregister id env => r.BehindInstance env id
  | .update_reachability id _ env => r.BehindEndpoint env id
  | .acquire_lease lease env => r.BehindLease env lease.lease_id
  | .renew_lease id env | .expire_lease id env | .revoke_lease id env => r.BehindLease env id
  | .invalidate record env => r.BehindNamed env record.target_kind record.target_text
  | .create_tombstone tomb env => r.BehindNamed env tomb.target_kind tomb.target_text
  | .supersede old_id new_inst env => r.BehindInstance env old_id ∨ r.BehindRegistration scan env new_inst
  | _ => False

/-- The envelope of the operation is stale in a generation. -/
def StaleEnvelope (r : Registry) (scan : List ServiceInstanceId) (op : Op) (env : AuthorityEnvelope) : Prop :=
  Behind env.registry_generation (some r.authority.registry_generation) ∨ r.BehindTarget scan op

/-! ## Refusals -/

/-- The stored records and what has been archived of them. -/
def records (r : Registry) : Registry :=
  { r with
    authority := {}, accounting := {}, index_by_kind := ∅, index_by_service := ∅, index_by_boot := ∅
    index_by_node := ∅, next_boot := 0, next_id := 0 }

/-- The call throws and changes no record. -/
def Refused (r : Registry) (o : Outcome α) : Prop := (∃ e, o.1 = .error e) ∧ o.2.records = r.records

theorem not_refused_ok (r : Registry) (a : α) (t : Registry) : ¬ r.Refused (.ok a, t) := by
  rintro ⟨⟨e, h⟩, -⟩
  cases h

theorem refused_error (e : RegistryError) {t : Registry} (h : t.records = r.records) :
    r.Refused ((.error e, t) : Outcome α) := ⟨⟨e, rfl⟩, h⟩

/-- One check in front of a write decides. -/
theorem refused_ite {c : Prop} [Decidable c] (e : RegistryError) {s : Registry} (h : s.records = r.records) (a : α)
    (t : Registry) : r.Refused ((if c then (.error e, s) else (.ok a, t)) : Outcome α) ↔ c := by
  split_ifs with hc
  · exact iff_of_true (refused_error e h) hc
  · exact iff_of_false (not_refused_ok r a t) hc

@[simp] theorem refused_map (o : Outcome α) (f : α → β) : r.Refused (o.map f) ↔ r.Refused o := by
  simp only [Refused, Outcome.map_fst_error, Outcome.map_snd]

@[simp] theorem refused_void (o : Outcome α) : r.Refused o.void ↔ r.Refused o := by
  simp only [Refused, Outcome.void_fst_error, Outcome.void_snd]

theorem refused_authorized (body : Outcome α) : r.Refused (r.authorized env body) ↔ ¬ r.Accepts env ∨ r.Refused body := by
  refine authorized_rule (P := fun o => r.Refused o ↔ ¬ r.Accepts env ∨ r.Refused body) ?_ ?_
  · intro e ha
    exact iff_of_true (refused_error e rfl) (.inl ha)
  · intro ha
    rw [or_iff_right (not_not.2 ha)]

/-! ## What each call checks itself -/

section
variable {tag : IdTag} {gen : GenTag} {ρ : Type}

/-- The record is not newer than the stored one and is not a repeat of it, or it is
new and a tombstone fences it. -/
def Domain.Refuses (D : Domain tag gen ρ) (r : Registry) (x : ρ) : Prop :=
  match (D.table r)[D.id x]? with
  | some current => D.generation x ≤ D.generation current ∧ ¬ (D.generation x = D.generation current ∧ D.same x current)
  | none => (D.fenced x r).isSome

end

/-- `register_instance` refuses before it marks or binds anything. -/
def RefusesInstance (r : Registry) (scan : List ServiceInstanceId) (inst : ServiceInstance) : Prop :=
  inst.service_id ∈ r.services →
    match r.currentInstance scan inst.service_id with
    | some (_, current) => inst.instance_generation ≤ current.instance_generation ∧
        ¬ (inst.instance_generation = current.instance_generation ∧ { inst with instance_id := r.assignedId inst } == current)
    | none =>
      r.covered_by_tombstone (text "ServiceId") (to_string inst.service_id.value) inst.instance_generation.value ∨
        (∃ eid ∈ inst.endpoints, r.claimable (r.assignedId inst) eid = false) ∧
          ∀ eid ∈ inst.endpoints.takeWhile (r.claimable (r.assignedId inst)), r.BoundTo (r.assignedId inst) eid

/-- The call's own checks refuse it before it changes a record. -/
def Refuses (r : Registry) (scan : List ServiceInstanceId) : Op → Prop
  | .register_service svc _ => services_.Refuses r svc
  | .register_instance inst _ => r.RefusesInstance scan inst
  | .register_runtime rt _ => runtimes_.Refuses r rt
  | .register_endpoint ep _ => endpoints_.Refuses r ep
  | .register_capability cap _ => capabilities_.Refuses r cap
  | .register_backend bd _ => backends_.Refuses r bd
  | .register_device dd _ => devices_.Refuses r dd
  | .register_protocol pd _ => protocols_.Refuses r pd
  | .register_node nd _ => nodes_.Refuses r nd
  | .update_health id _ env | .update_readiness id _ env | .update_freshness id _ env
  | .update_instance_reachability id _ env =>
    ∀ inst, r.instances[id]? = some inst → generation_is_current_generation env inst = false
  | .update_reachability id _ env =>
    ∀ ep, r.endpoints[id]? = some ep → env.endpoint_generation.value ≠ 0 ∧ env.endpoint_generation ≠ ep.generation
  | .renew_lease id env =>
    ∀ lease, r.leases[id]? = some lease →
      lease.state = LeaseState.REVOKED ∨ ((r.instances[lease.service_instance]?).any fun inst => inst.boot ≠ env.boot) ∨
        env.lease_generation.value ≠ 0 ∧ env.lease_generation ≠ lease.generation
  | .supersede old_id _ _ => r.instances[old_id]? = none
  | .deregister id env =>
    ∃ inst, r.instances[id]? = some inst ∧ generation_is_current_generation env inst = false
  | _ => False

theorem registerRecord_refused_iff {tag : IdTag} {gen : GenTag} {ρ : Type} (D : Domain tag gen ρ) (x : ρ) :
    r.Refused (registerRecord D r x env) ↔ ¬ r.Accepts env ∨ D.Refuses r x := by
  rw [registerRecord, refused_authorized, Domain.Refuses]
  refine or_congr_right ?_
  rcases (D.table r)[D.id x]? with _ | current
  · dsimp only
    rcases D.fenced x r with _ | f
    · exact iff_of_false (not_refused_ok _ _ _) Bool.false_ne_true
    · exact iff_of_true (refused_error _ rfl) rfl
  · simp only [Bool.and_eq_true, decide_eq_true_eq]
    split_ifs with hsame hle
    · exact iff_of_false (not_refused_ok _ _ _) fun h => h.2 hsame
    · exact iff_of_true (refused_error _ rfl) ⟨hle, hsame⟩
    · exact iff_of_false (not_refused_ok _ _ _) fun h => hle h.1

theorem updateInstance_refused_iff (id : ServiceInstanceId) (write : ServiceInstance → ServiceInstance)
    (stale : RegistryError) :
    r.Refused (r.updateInstance id write stale env) ↔
      ¬ r.Accepts env ∨ ∀ inst, r.instances[id]? = some inst → generation_is_current_generation env inst = false := by
  rw [updateInstance, refused_authorized]
  refine or_congr_right ?_
  split
  · rename_i hi
    exact iff_of_true (refused_error _ rfl) (by simp [hi])
  · rename_i inst hi
    refine (refused_ite _ rfl _ _).trans ?_
    simp [hi]

theorem update_reachability_refused_iff (id : EndpointId) (rc : Enum Reachability) :
    r.Refused (r.update_reachability id rc env) ↔ ¬ r.Accepts env ∨
      ∀ ep, r.endpoints[id]? = some ep → env.endpoint_generation.value ≠ 0 ∧ env.endpoint_generation ≠ ep.generation := by
  rw [update_reachability, refused_authorized]
  refine or_congr_right ?_
  split
  · rename_i hep
    exact iff_of_true (refused_error _ rfl) (by simp [hep])
  · rename_i ep hep
    refine (refused_ite _ rfl _ _).trans ?_
    simp [hep]

theorem renew_lease_refused_iff (id : LeaseId) :
    r.Refused (r.renew_lease id env) ↔ ¬ r.Accepts env ∨ ∀ lease, r.leases[id]? = some lease →
      lease.state = LeaseState.REVOKED ∨ ((r.instances[lease.service_instance]?).any fun inst => inst.boot ≠ env.boot) ∨
        env.lease_generation.value ≠ 0 ∧ env.lease_generation ≠ lease.generation := by
  rw [renew_lease, refused_authorized]
  refine or_congr_right ?_
  split
  · rename_i hl
    exact iff_of_true (refused_error _ rfl) (by simp [hl])
  · rename_i lease hl
    simp only [hl, Option.some.injEq, forall_eq']
    split_ifs with hrevoked hboot hgen
    · exact iff_of_true (refused_error _ rfl) (.inl hrevoked)
    · exact iff_of_true (refused_error _ rfl) (.inr (.inl hboot))
    · exact iff_of_true (refused_error _ rfl) (.inr (.inr hgen))
    · refine iff_of_false (not_refused_ok _ _ _) ?_
      rintro (h | h | h)
      · exact hrevoked h
      · exact hboot h
      · exact hgen h

theorem deregister_refused_iff (id : ServiceInstanceId) :
    r.Refused (r.deregister id env) ↔ ¬ r.Accepts env ∨
      ∃ inst, r.instances[id]? = some inst ∧ generation_is_current_generation env inst = false := by
  rw [deregister, refused_authorized]
  refine or_congr_right ?_
  split
  · rename_i hi
    exact iff_of_false (not_refused_ok _ _ _) (by simp [hi])
  · rename_i inst hi
    refine (refused_ite _ rfl _ _).trans ?_
    simp [hi]

/-! ## Registration of an instance -/

theorem records_eq_endpoints {s t : Registry} (h : s.records = t.records) : s.endpoints = t.endpoints :=
  congrArg (·.endpoints) h

theorem records_eq_history {s t : Registry} (h : s.records = t.records) : s.instance_history = t.instance_history :=
  congrArg (·.instance_history) h

/-- A lease ends without a refusal, whatever state it is in. -/
theorem endLease_refused_iff (id : LeaseId) (state : LeaseState) :
    r.Refused (r.endLease id state env) ↔ ¬ r.Accepts env ∨ False := by
  rw [endLease, refused_authorized]
  refine or_congr_right (iff_false_intro ?_)
  split
  · exact not_refused_ok _ _ _
  · exact not_refused_ok _ _ _

/-- An endpoint that is bound to the instance stays as it is. -/
theorem claimEndpoint_bound {id : ServiceInstanceId} {eid : EndpointId} (h : r.BoundTo id eid) :
    r.claimEndpoint id eid = (.ok (), r) := by
  obtain ⟨ep, hep, rfl⟩ := h
  have hkeep : r.endpoints.insert eid ep = r.endpoints := by
    apply Std.ExtTreeMap.ext_getElem?
    intro k
    rw [Std.ExtTreeMap.getElem?_insert]
    by_cases hk : eid = k
    · rw [← hk, hep]
      simp
    · simp [hk]
  unfold claimEndpoint
  rw [hep]
  by_cases h0 : ep.service_instance.value = 0
  · simp [h0, hkeep]
  · simp [h0]

/-- The loop changes no record where every endpoint that it passes is bound already. -/
theorem claimEndpoints_records {id : ServiceInstanceId} {eids : List EndpointId}
    (hb : ∀ eid ∈ eids.takeWhile (r.claimable id), r.BoundTo id eid) : (r.claimEndpoints id eids).2.records = r.records := by
  induction eids with
  | nil => rfl
  | cons eid eids ih =>
    rw [claimEndpoints]
    rw [List.takeWhile_cons] at hb
    by_cases hc : r.claimable id eid
    · rw [if_pos hc, List.forall_mem_cons] at hb
      rw [claimEndpoint_bound hb.1]
      exact ih hb.2
    · rcases claimEndpoint_cases r id eid with ⟨_, hc', _, _⟩ | ⟨hc', _, _⟩ | ⟨e, t, -, hs, h⟩
      · exact absurd hc' hc
      · exact absurd hc' hc
      · have hrecords : t.withoutRejections.records = r.withoutRejections.records := by
          rw [show t.withoutRejections = r.withoutRejections from hs]
        rw [h]
        exact hrecords

/-- The binding is refused if and only if an endpoint cannot be claimed and all
before it are bound already. -/
theorem bindInstance_refused_iff (r : Registry) (copy : ServiceInstance) : r.Refused (r.bindInstance copy) ↔
    (∃ eid ∈ copy.endpoints, r.claimable copy.instance_id eid = false) ∧
      ∀ eid ∈ copy.endpoints.takeWhile (r.claimable copy.instance_id), r.BoundTo copy.instance_id eid := by
  have hok := claimEndpoints_ok_iff copy.instance_id copy.endpoints r
  refine bindInstance_rule (P := fun o => r.Refused o ↔ _) ?_ ?_
  · intro e t h
    have ht : t = (r.claimEndpoints copy.instance_id copy.endpoints).2 := by rw [h]
    constructor
    · rintro ⟨-, hrecords⟩
      refine ⟨?_, ?_⟩
      · by_contra hall
        obtain ⟨s, hs⟩ := hok.2 (by simpa using hall)
        cases h.symm.trans hs
      · intro eid heid
        obtain ⟨ep, hep, hid⟩ := (claimEndpoints_bound copy.instance_id copy.endpoints r).2 eid heid
        rw [← ht, records_eq_endpoints hrecords] at hep
        exact ⟨ep, hep, hid⟩
    · rintro ⟨-, hb⟩
      apply refused_error
      rw [ht]
      exact claimEndpoints_records hb
  · intro t h
    refine iff_of_false (not_refused_ok _ _ _) ?_
    rintro ⟨⟨eid, heid, hc⟩, -⟩
    exact Bool.false_ne_true (hc.symm.trans (hok.1 ⟨t, h⟩ eid heid))

/-- A history that has grown is a changed record. -/
theorem not_refused_of_history {o : Outcome α} (h : r.instance_history.length < o.2.instance_history.length) :
    ¬ r.Refused o := by
  rintro ⟨-, hrecords⟩
  rw [records_eq_history hrecords] at h
  exact lt_irrefl _ h

theorem register_instance_refused_iff (scan : List ServiceInstanceId) (inst : ServiceInstance) :
    r.Refused (r.register_instance scan inst env) ↔ ¬ r.Accepts env ∨ r.RefusesInstance scan inst := by
  refine register_instance_rule (P := fun o => r.Refused o ↔ ¬ r.Accepts env ∨ r.RefusesInstance scan inst) ?_ ?_ ?_ ?_ ?_
    ?_ ?_
  · intro e ha
    exact iff_of_true (refused_error e rfl) (.inl ha)
  · intro _ hs e
    exact iff_of_true (refused_error e rfl) (.inr fun h => absurd h hs)
  · intro ha hs id current hc hgen hsame
    refine iff_of_false (not_refused_ok _ _ _) ?_
    rw [or_iff_right (not_not.2 ha), RefusesInstance, hc]
    intro h
    exact (h hs).2 ⟨hgen, hsame⟩
  · intro _ _ id current hc hle hnot e
    refine iff_of_true (refused_error e rfl) (.inr ?_)
    intro _
    rw [hc]
    exact ⟨hle, hnot⟩
  · intro ha hs id current hc hlt
    have hgrown : r.instance_history.length < (({ r with next_id := r.assignedNext inst }.supersedeCurrent id current).bindInstance
        { inst with instance_id := r.assignedId inst }).2.instance_history.length := by
      refine lt_of_lt_of_le ?_ (bindInstance_appends _ _).1.length_le
      simp [supersedeCurrent]
    refine iff_of_false (not_refused_of_history hgrown) ?_
    simp [RefusesInstance, ha, hs, hc, hlt]
  · intro _ _ hc hcov e
    refine iff_of_true (refused_error e rfl) (.inr ?_)
    intro _
    rw [hc]
    exact .inl hcov
  · intro ha hs hc hcov
    have hbind := bindInstance_refused_iff { r with next_id := r.assignedNext inst }
      { inst with instance_id := r.assignedId inst }
    have hrefuses : r.RefusesInstance scan inst ↔
        (∃ eid ∈ inst.endpoints, r.claimable (r.assignedId inst) eid = false) ∧
          ∀ eid ∈ inst.endpoints.takeWhile (r.claimable (r.assignedId inst)), r.BoundTo (r.assignedId inst) eid := by
      rw [RefusesInstance, hc]
      dsimp only
      rw [or_iff_right hcov]
      exact ⟨fun h => h hs, fun h _ => h⟩
    rw [or_iff_right (not_not.2 ha), hrefuses]
    exact hbind

theorem supersede_refused_iff (scan : List ServiceInstanceId) (old_id : ServiceInstanceId) (new_inst : ServiceInstance) :
    r.Refused (r.supersede scan old_id new_inst env) ↔ ¬ r.Accepts env ∨ r.instances[old_id]? = none := by
  refine supersede_rule (P := fun o => r.Refused o ↔ ¬ r.Accepts env ∨ r.instances[old_id]? = none) ?_ ?_ ?_ ?_
  · intro e ha
    exact iff_of_true (refused_error e rfl) (.inl ha)
  · intro _ hold e
    exact iff_of_true (refused_error e rfl) (.inr hold)
  · intro ha old hold e t h
    have hgrown := (register_instance_extends (r.markSuperseded old_id old) scan new_inst env).length_le
    rw [h] at hgrown
    refine iff_of_false (not_refused_of_history (lt_of_lt_of_le ?_ hgrown)) ?_
    · simp [markSuperseded]
    · simp [ha, hold]
  · intro ha old hold id t _
    refine iff_of_false (not_refused_ok _ _ _) ?_
    simp [ha, hold]

end Registry

/-! ## Every mutation -/

/-- A mutation throws and changes no record if and only if its envelope is rejected or
its own checks refuse it. -/
theorem refused_iff {r : Registry} {op : Op} {env : AuthorityEnvelope} (scan : List ServiceInstanceId)
    (henv : op.envelope = some env) : r.Refused (r.exec scan op) ↔ ¬ r.Accepts env ∨ r.Refuses scan op := by
  have hnever : ∀ {α : Type} (a : α) (t : Registry), r.Refused (r.authorized env (.ok a, t)) ↔ ¬ r.Accepts env ∨ False := by
    intro α a t
    rw [Registry.refused_authorized, iff_false_intro (Registry.not_refused_ok r a t)]
  cases op <;> simp only [Op.envelope, Option.some.injEq, reduceCtorEq] at henv <;> subst henv <;>
    simp only [Registry.exec, Registry.refused_map, Registry.Refuses]
  case register_service svc env => exact (Registry.refused_void _).trans (Registry.registerRecord_refused_iff _ _)
  case register_protocol pd env => exact (Registry.refused_void _).trans (Registry.registerRecord_refused_iff _ _)
  case register_node nd env => exact (Registry.refused_void _).trans (Registry.registerRecord_refused_iff _ _)
  case register_runtime rt env => exact Registry.registerRecord_refused_iff _ _
  case register_endpoint ep env => exact Registry.registerRecord_refused_iff _ _
  case register_capability cap env => exact Registry.registerRecord_refused_iff _ _
  case register_backend bd env => exact Registry.registerRecord_refused_iff _ _
  case register_device dd env => exact Registry.registerRecord_refused_iff _ _
  case register_instance inst env => exact Registry.register_instance_refused_iff _ _
  case update_health id h env => exact Registry.updateInstance_refused_iff _ _ _
  case update_readiness id rd env => exact Registry.updateInstance_refused_iff _ _ _
  case update_freshness id f env => exact Registry.updateInstance_refused_iff _ _ _
  case update_instance_reachability id rc env => exact Registry.updateInstance_refused_iff _ _ _
  case update_reachability id rc env => exact Registry.update_reachability_refused_iff _ _
  case renew_lease id env => exact Registry.renew_lease_refused_iff _
  case deregister id env => exact Registry.deregister_refused_iff _
  case supersede old_id new_inst env => exact Registry.supersede_refused_iff _ _ _
  case invalidate record env => exact hnever _ _
  case acquire_lease lease env => exact hnever _ _
  case create_tombstone tomb env => exact hnever _ _
  case expire_lease id env => exact Registry.endLease_refused_iff _ _
  case revoke_lease id env => exact Registry.endLease_refused_iff _ _

/-- A stale envelope is refused before a record changes if and only if the epoch, the
boot or a check of the call's own refuses it. -/
theorem stale_envelope_refused_iff (r : Registry) (scan : List ServiceInstanceId) (op : Op) (env : AuthorityEnvelope)
    (henv : op.envelope = some env) :
    (r.StaleEnvelope scan op env → r.Refused (r.exec scan op)) ↔
      (r.StaleEnvelope scan op env → ¬ r.Accepts env ∨ r.Refuses scan op) := by
  rw [refused_iff scan henv]

namespace Sample

/-- The sample with its instance in the second generation. -/
def renewed : Registry := Registry.fresh.after [
  .adopt_worker ⟨1⟩, .register_service service env, .register_instance (incarnation 5 2) env]

def behindInstance : AuthorityEnvelope := { env with service_instance_generation := ⟨1⟩ }

def behindRegistry : AuthorityEnvelope := { env with registry_generation := ⟨1⟩ }

end Sample

theorem stale_envelope_refused_sample :
    Sample.renewed.StaleEnvelope [⟨5⟩] (.update_health ⟨5⟩ Health.DEGRADED Sample.behindInstance) Sample.behindInstance ∧
      Sample.renewed.Refused (Sample.renewed.exec [⟨5⟩] (.update_health ⟨5⟩ Health.DEGRADED Sample.behindInstance)) := by
  have hstored : Sample.renewed.instances[(⟨5⟩ : ServiceInstanceId)]?.map (·.instance_generation) = some ⟨2⟩ := by
    decide +kernel
  have hstale : Sample.renewed.StaleEnvelope [⟨5⟩] (.update_health ⟨5⟩ Health.DEGRADED Sample.behindInstance)
      Sample.behindInstance := by
    refine .inr (.inl ⟨by decide, ⟨2⟩, ?_, by decide⟩)
    rw [hstored]
    rfl
  have hchecked : ∀ inst ∈ Sample.renewed.instances[(⟨5⟩ : ServiceInstanceId)]?,
      Registry.generation_is_current_generation Sample.behindInstance inst = false := by decide +kernel
  refine ⟨hstale, ?_⟩
  refine (stale_envelope_refused_iff Sample.renewed [⟨5⟩] (.update_health ⟨5⟩ Health.DEGRADED Sample.behindInstance)
    Sample.behindInstance rfl).2 ?_ hstale
  exact fun _ => .inr hchecked

/-- A health update under the registry generation of the start goes through. -/
theorem stale_registry_generation_accepted : Sample.registry.Reachable ∧
    Sample.registry.StaleEnvelope [⟨5⟩] (.update_health ⟨5⟩ Health.DEGRADED Sample.behindRegistry) Sample.behindRegistry ∧
    ¬ Sample.registry.Refused (Sample.registry.exec [⟨5⟩] (.update_health ⟨5⟩ Health.DEGRADED Sample.behindRegistry)) ∧
    (Sample.registry.exec [⟨5⟩] (.update_health ⟨5⟩ Health.DEGRADED Sample.behindRegistry)).2.instances[
      (⟨5⟩ : ServiceInstanceId)]?.map (·.health) = some (Health.DEGRADED : Enum Health) := by
  refine ⟨Sample.registry_reachable.reachable, .inl ⟨by decide, _, rfl, by decide +kernel⟩, ?_, by decide +kernel⟩
  have hok : (Sample.registry.exec [⟨5⟩] (.update_health ⟨5⟩ Health.DEGRADED Sample.behindRegistry)).1.isOk := by
    decide +kernel
  rintro ⟨⟨e, h⟩, -⟩
  rw [h] at hok
  cases hok

end RuntimeRegistry
