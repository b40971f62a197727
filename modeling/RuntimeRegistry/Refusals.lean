import RuntimeRegistry.Atomicity
import RuntimeRegistry.Changes
/-!
# What a refused call leaves

A call that throws is meant to leave the registry as it was, but for the counts
of refusals. The calls that check everything before they write do. `supersede`
marks the old instance first, so it does only where the registration that it
goes on with returns, and `Registrable` says where that is.
-/
open Lib

namespace RuntimeRegistry

namespace Registry

variable {α β : Type} {r t : Registry} {env : AuthorityEnvelope} {scan : List ServiceInstanceId} {inst : ServiceInstance}

/-! ## Calls that check before they write -/

/-- A refusal that wrote nothing. -/
theorem throwsUnchanged_refused (e : RegistryError) (r : Registry) : r.ThrowsUnchanged ((.error e, r) : Outcome α) :=
  (throwsUnchanged_error e r).2 (.refl r)

theorem throwsUnchanged_duplicate (e : RegistryError) (r : Registry) :
    r.ThrowsUnchanged ((.error e, r.countDuplicate) : Outcome α) := (throwsUnchanged_error e _).2 (.countDuplicate r)

theorem throwsUnchanged_stale (e : RegistryError) (r : Registry) :
    r.ThrowsUnchanged ((.error e, r.countStale) : Outcome α) := (throwsUnchanged_error e _).2 (.countStale r)

theorem ThrowsUnchanged.map {o : Outcome α} (h : r.ThrowsUnchanged o) (f : α → β) : r.ThrowsUnchanged (o.map f) := by
  rcases o with ⟨e | a, t⟩
  · exact (throwsUnchanged_error e t).2 ((throwsUnchanged_error e t).1 h)
  · exact throwsUnchanged_ok _ _ _

theorem ThrowsUnchanged.void {o : Outcome α} (h : r.ThrowsUnchanged o) : r.ThrowsUnchanged o.void := by
  rcases o with ⟨e | a, t⟩
  · exact (throwsUnchanged_error e t).2 ((throwsUnchanged_error e t).1 h)
  · exact throwsUnchanged_ok _ _ _

theorem registerRecord_throws_unchanged {tag : IdTag} {gen : GenTag} {ρ : Type} (D : Domain tag gen ρ) (x : ρ) :
    r.ThrowsUnchanged (registerRecord D r x env) := by
  apply registerRecord_rule D (P := r.ThrowsUnchanged)
  case rejected => exact fun e _ => throwsUnchanged_refused e r
  case repeated => exact fun _ _ _ _ _ => throwsUnchanged_ok _ _ _
  case stale => exact fun _ _ _ _ => throwsUnchanged_duplicate _ r
  case replaced => exact fun _ _ _ _ => throwsUnchanged_ok _ _ _
  case fenced => exact fun _ _ _ _ => throwsUnchanged_stale _ r
  case inserted => exact fun _ _ _ => throwsUnchanged_ok _ _ _

theorem updateInstance_throws_unchanged (id : ServiceInstanceId) (write : ServiceInstance → ServiceInstance)
    (stale : RegistryError) : r.ThrowsUnchanged (r.updateInstance id write stale env) := by
  apply updateInstance_rule (P := r.ThrowsUnchanged)
  case rejected => exact fun e _ => throwsUnchanged_refused e r
  case unknown => exact fun _ _ e => throwsUnchanged_refused e r
  case superseded => exact fun _ _ _ _ => throwsUnchanged_stale _ r
  case updated => exact fun _ _ _ _ => throwsUnchanged_ok _ _ _

theorem update_reachability_throws_unchanged (id : EndpointId) (rc : Enum Reachability) :
    r.ThrowsUnchanged (r.update_reachability id rc env) := by
  apply update_reachability_rule (P := r.ThrowsUnchanged)
  case rejected => exact fun e _ => throwsUnchanged_refused e r
  case unknown => exact fun _ _ e => throwsUnchanged_refused e r
  case stale => exact fun _ _ _ _ e => throwsUnchanged_stale e r
  case updated => exact fun _ _ _ _ => throwsUnchanged_ok _ _ _

theorem renew_lease_throws_unchanged (id : LeaseId) : r.ThrowsUnchanged (r.renew_lease id env) := by
  apply renew_lease_rule (P := r.ThrowsUnchanged)
  case rejected => exact fun e _ => throwsUnchanged_refused e r
  case unknown => exact fun _ _ e => throwsUnchanged_refused e r
  case refused => exact fun _ _ _ e => throwsUnchanged_stale e r
  case renewed => exact fun _ _ _ _ => throwsUnchanged_ok _ _ _

theorem endLease_throws_unchanged (id : LeaseId) (state : LeaseState) :
    r.ThrowsUnchanged (r.endLease id state env) := by
  apply endLease_rule (P := r.ThrowsUnchanged)
  case rejected => exact fun e _ => throwsUnchanged_refused e r
  case unknown => exact fun _ _ => throwsUnchanged_ok _ _ _
  case inactive => exact fun _ _ _ _ => throwsUnchanged_ok _ _ _
  case ended => exact fun _ _ _ _ => throwsUnchanged_ok _ _ _

theorem deregister_throws_unchanged (id : ServiceInstanceId) : r.ThrowsUnchanged (r.deregister id env) := by
  apply deregister_rule (P := r.ThrowsUnchanged)
  case rejected => exact fun e _ => throwsUnchanged_refused e r
  case unknown => exact fun _ _ => throwsUnchanged_ok _ _ _
  case stale => exact fun _ _ _ _ e => throwsUnchanged_stale e r
  case retired => exact fun _ _ _ _ => throwsUnchanged_ok _ _ _

/-- The calls that throw for their envelope only. -/
theorem authorized_throws_unchanged {body : Outcome α} (h : body.Returns) : r.ThrowsUnchanged (r.authorized env body) := by
  apply authorized_rule (P := r.ThrowsUnchanged)
  case rejected => exact fun e _ => throwsUnchanged_refused e r
  case accepted =>
    intro _
    obtain ⟨a, ha⟩ := h
    rw [show body = (.ok a, body.2) from Prod.ext ha rfl]
    exact throwsUnchanged_ok _ _ _

/-- A call other than a registration of an instance, `supersede` and `load_from` that
throws leaves the state as it was, but for the counts of refusals. -/
theorem exec_throws_unchanged (r : Registry) (scan : List ServiceInstanceId) {op : Op} (hnew : op.newInstance = none)
    (himage : op.class ≠ .image) : r.ThrowsUnchanged (r.exec scan op) := by
  cases op with
  | register_instance | supersede => cases hnew
  | load_from => exact absurd rfl himage
  | begin_coordinator_epoch | adopt_worker | mark_worker_died | set_worker_health_reporting
  | mark_lease_revalidation_required | query | query_and_account | serialize => exact throwsUnchanged_ok _ _ _
  | register_service svc env => exact (registerRecord_throws_unchanged services_ svc).void.map _
  | register_runtime rt env => exact (registerRecord_throws_unchanged runtimes_ rt).map _
  | register_endpoint ep env => exact (registerRecord_throws_unchanged endpoints_ ep).map _
  | register_capability cap env => exact (registerRecord_throws_unchanged capabilities_ cap).map _
  | register_backend bd env => exact (registerRecord_throws_unchanged backends_ bd).map _
  | register_device dd env => exact (registerRecord_throws_unchanged devices_ dd).map _
  | register_protocol pd env => exact (registerRecord_throws_unchanged protocols_ pd).void.map _
  | register_node nd env => exact (registerRecord_throws_unchanged nodes_ nd).void.map _
  | update_health id h env => exact (updateInstance_throws_unchanged id _ _).map _
  | update_readiness id rd env => exact (updateInstance_throws_unchanged id _ _).map _
  | update_freshness id f env => exact (updateInstance_throws_unchanged id _ _).map _
  | update_instance_reachability id rc env => exact (updateInstance_throws_unchanged id _ _).map _
  | update_reachability id rc env => exact (update_reachability_throws_unchanged id rc).map _
  | acquire_lease lease env => exact (authorized_throws_unchanged (by split; exact ⟨_, rfl⟩)).map _
  | renew_lease id env => exact (renew_lease_throws_unchanged id).map _
  | expire_lease id env => exact (endLease_throws_unchanged id _).map _
  | revoke_lease id env => exact (endLease_throws_unchanged id _).map _
  | invalidate record env => exact (authorized_throws_unchanged ⟨_, rfl⟩).map _
  | create_tombstone tomb env => exact (authorized_throws_unchanged (by split; exact ⟨_, rfl⟩)).map _
  | deregister id env => exact (deregister_throws_unchanged id).map _

/-- A replay of an older descriptor is refused, and only counted. -/
theorem exec_throws_unchanged_replay : Sample.registry.ThrowsUnchanged (Sample.registry.exec [⟨5⟩]
    (.register_service { Sample.service with generation := ⟨0⟩ } Sample.env)) :=
  exec_throws_unchanged _ _ rfl (by decide)

/-! ## Which registrations return -/

/-- The registration is the exact repeat of the current record of its service. -/
def Repeats (r : Registry) (scan : List ServiceInstanceId) (inst : ServiceInstance) : Prop :=
  inst.service_id ∈ r.services ∧ ∃ id current, r.currentInstance scan inst.service_id = some (id, current) ∧
    inst.instance_generation = current.instance_generation ∧ { inst with instance_id := r.assignedId inst } == current

/-- The registration passes the checks of a new record: its service is registered,
it is newer than the current record or, where there is none, not fenced by a
tombstone, and it can claim every endpoint that it lists. -/
def Admissible (r : Registry) (scan : List ServiceInstanceId) (inst : ServiceInstance) : Prop :=
  inst.service_id ∈ r.services ∧
  match r.currentInstance scan inst.service_id with
  | some (id, current) => current.instance_generation < inst.instance_generation ∧
      ∀ eid ∈ inst.endpoints, (r.supersedeCurrent id current).claimable (r.assignedId inst) eid
  | none => ¬ r.covered_by_tombstone (text "ServiceId") (to_string inst.service_id.value) inst.instance_generation.value ∧
      ∀ eid ∈ inst.endpoints, r.claimable (r.assignedId inst) eid

/-- The checks of `register_instance` behind the envelope. -/
def Registrable (r : Registry) (scan : List ServiceInstanceId) (inst : ServiceInstance) : Prop :=
  r.Repeats scan inst ∨ r.Admissible scan inst

theorem Repeats.not_admissible (h : r.Repeats scan inst) : ¬ r.Admissible scan inst := by
  obtain ⟨_, id, current, hc, hgen, _⟩ := h
  rintro ⟨_, ha⟩
  rw [hc] at ha
  exact absurd ha.1 hgen.not_gt

/-- Binding returns where every endpoint can be claimed. -/
theorem bindInstance_returns_iff {copy : ServiceInstance} :
    (r.bindInstance copy).Returns ↔ ∀ eid ∈ copy.endpoints, r.claimable copy.instance_id eid := by
  rw [← claimEndpoints_ok_iff]
  apply bindInstance_rule (P := fun o => o.Returns ↔ _)
  case refused =>
    intro e t h
    refine iff_of_false (Outcome.not_returns_error e t) ?_
    rintro ⟨u, hu⟩
    cases h.symm.trans hu
  case stored => exact fun t h => iff_of_true (Outcome.returns_ok _ _) ⟨t, h⟩

theorem register_instance_returns_iff :
    (r.register_instance scan inst env).Returns ↔ r.Accepts env ∧ r.Registrable scan inst := by
  have hnext : ∀ copy : ServiceInstance, { r with next_id := r.assignedNext inst }.claimable copy.instance_id =
    r.claimable copy.instance_id := fun _ => rfl
  apply register_instance_rule (P := fun o => o.Returns ↔ _)
  case rejected => exact fun e ha => iff_of_false (Outcome.not_returns_error e _) fun h => ha h.1
  case unregistered =>
    exact fun _ hs e => iff_of_false (Outcome.not_returns_error e _) fun h => h.2.elim (fun h => hs h.1) fun h => hs h.1
  case repeated =>
    exact fun ha hs id current hc hgen heq =>
      iff_of_true (Outcome.returns_ok _ _) ⟨ha, .inl ⟨hs, id, current, hc, hgen, heq⟩⟩
  case stale =>
    intro ha hs id current hc hle hnot e
    refine iff_of_false (Outcome.not_returns_error e _) fun h => ?_
    rcases h.2 with ⟨_, id', current', hc', hgen, heq⟩ | ⟨_, hadm⟩
    · rw [hc] at hc'
      cases hc'
      exact hnot ⟨hgen, heq⟩
    · rw [hc] at hadm
      exact absurd hadm.1 hle.not_gt
  case superseded =>
    intro ha hs id current hc hlt
    rw [bindInstance_returns_iff]
    constructor
    · exact fun hclaim => ⟨ha, .inr ⟨hs, by rw [hc]; exact ⟨hlt, hclaim⟩⟩⟩
    · rintro ⟨_, ⟨_, id', current', hc', hgen, _⟩ | ⟨_, hadm⟩⟩
      · rw [hc] at hc'
        cases hc'
        exact absurd hlt hgen.not_gt
      · rw [hc] at hadm
        exact hadm.2
  case fenced =>
    intro ha hs hc hcov e
    refine iff_of_false (Outcome.not_returns_error e _) fun h => ?_
    rcases h.2 with ⟨_, id', current', hc', _⟩ | ⟨_, hadm⟩
    · cases hc.symm.trans hc'
    · rw [hc] at hadm
      exact hadm.1 hcov
  case first =>
    intro ha hs hc hcov
    rw [bindInstance_returns_iff]
    constructor
    · exact fun hclaim => ⟨ha, .inr ⟨hs, by rw [hc]; exact ⟨hcov, hclaim⟩⟩⟩
    · rintro ⟨_, ⟨_, id', current', hc', _⟩ | ⟨_, hadm⟩⟩
      · cases hc.symm.trans hc'
      · rw [hc] at hadm
        exact hadm.2

/-! ## Supersession -/

/-- The record maps, the histories, the id counter and the accounting but for the
counts of refusals are the same. -/
def KeepsRecords (r t : Registry) : Prop :=
  t.withoutRejections = { r.withoutRejections with
    authority := t.authority, next_boot := t.next_boot, index_by_kind := t.index_by_kind
    index_by_service := t.index_by_service, index_by_boot := t.index_by_boot, index_by_node := t.index_by_node }

theorem KeepsRecords.instance_history (h : r.KeepsRecords t) : t.instance_history = r.instance_history :=
  congrArg (·.instance_history) (show t.withoutRejections = _ from h)

/-- A supersession that throws leaves the records as they were exactly if it stops at
the envelope or at the old id, or the new instance passes the checks that
`register_instance` makes once the old one is marked. -/
theorem supersede_throws_unchanged_iff (r : Registry) (scan : List ServiceInstanceId) (old_id : ServiceInstanceId)
    (inst : ServiceInstance) (env : AuthorityEnvelope) :
    (∀ e t, r.supersede scan old_id inst env = (.error e, t) → r.KeepsRecords t) ↔
      (r.Accepts env → ∀ old, r.instances[old_id]? = some old → (r.markSuperseded old_id old).Registrable scan inst) := by
  apply supersede_rule (P := fun o => (∀ e t, o = (.error e, t) → r.KeepsRecords t) ↔ _)
  case rejected =>
    intro e ha
    refine iff_of_true ?_ fun h => absurd h ha
    rintro _ _ ⟨⟩
    rfl
  case unknown =>
    intro _ hnone e
    refine iff_of_true ?_ fun _ old hold => absurd (hnone.symm.trans hold) (by simp)
    rintro _ _ ⟨⟩
    rfl
  case refused =>
    -- the old record is in the history already, and the registration takes nothing out of it
    intro ha old hold e t ht
    refine iff_of_false (fun h => ?_) fun h => ?_
    · have hextends := register_instance_extends (r.markSuperseded old_id old) scan inst env
      rw [ht, (h e t rfl).instance_history] at hextends
      have hlen := hextends.length_le
      simp [markSuperseded] at hlen
    · have hreturns := register_instance_returns_iff.2 ⟨show (r.markSuperseded old_id old).Accepts env from ha, h ha old hold⟩
      rw [ht] at hreturns
      exact Outcome.not_returns_error e t hreturns
  case registered =>
    intro ha old hold id t ht
    refine iff_of_true (fun e u h => nomatch h) fun _ old' hold' => ?_
    obtain rfl : old = old' := Option.some.inj (hold.symm.trans hold')
    have hreturns : ((r.markSuperseded old_id old).register_instance scan inst env).Returns := by
      rw [ht]
      exact Outcome.returns_ok id t
    exact (register_instance_returns_iff.1 hreturns).2

/-- An instance of an unregistered service ends the instance that it was to supersede. -/
theorem supersede_throws_after_marking :
    let o := Sample.registry.supersede [⟨5⟩] ⟨5⟩ { Sample.incarnation 6 2 with service_id := ⟨4⟩ } Sample.env
    Sample.registry.Reachable ∧ (∃ e, o.1 = .error e) ∧ ¬ Sample.registry.KeepsRecords o.2 ∧
      o.2.instances[(⟨5⟩ : ServiceInstanceId)]?.map (·.lifecycle) = some (Lifecycle.SUPERSEDED : Enum Lifecycle) := by
  intro o
  have hthrow : o.1.isOk = false := by decide +kernel
  have hlen : o.2.instance_history.length ≠ Sample.registry.instance_history.length := by decide +kernel
  refine ⟨Sample.registry_reachable.reachable, ?_, fun h => hlen (by rw [h.instance_history]), by decide +kernel⟩
  rcases ho : o.1 with e | _
  · exact ⟨e, rfl⟩
  · rw [ho] at hthrow
    cases hthrow

end Registry

end RuntimeRegistry
