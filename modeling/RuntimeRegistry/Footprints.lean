import RuntimeRegistry.Revocation
/-!
# What each call leaves alone

The calls fall into classes by the part of the state they write. A fact about a
part that a class does not write needs no look at its calls.
-/
open Lib

namespace RuntimeRegistry

/-- The incarnations of `b` are those of `a`. -/
structure RegistryAuthority.SameIncarnations (a b : RegistryAuthority) : Prop where
  epoch : b.epoch = a.epoch
  current_boot : b.current_boot = a.current_boot
  live_boots : b.live_boots = a.live_boots
  boot_worker : b.boot_worker = a.boot_worker

theorem RegistryAuthority.SameIncarnations.refl (a : RegistryAuthority) : a.SameIncarnations a := ⟨rfl, rfl, rfl, rfl⟩

theorem RegistryAuthority.SameIncarnations.trans {a b c : RegistryAuthority} (h₁ : a.SameIncarnations b)
    (h₂ : b.SameIncarnations c) : a.SameIncarnations c :=
  ⟨h₂.1.trans h₁.1, h₂.2.trans h₁.2, h₂.3.trans h₁.3, h₂.4.trans h₁.4⟩

namespace Registry

variable {r : Registry} {env : AuthorityEnvelope}

/-! ## Descriptors -/

/-- `t` is `r` but for what the registrations of descriptors can write. -/
def DescriptorWrites (r t : Registry) : Prop :=
  ∃ authority accounting services runtimes runtime_instances endpoints protocols backends devices capabilities nodes
    runtime_history endpoint_history capability_history next_id index_by_kind index_by_service index_by_boot index_by_node,
    t = { r with
      authority := authority, accounting := accounting, services := services, runtimes := runtimes
      runtime_instances := runtime_instances, endpoints := endpoints, protocols := protocols, backends := backends
      devices := devices, capabilities := capabilities, nodes := nodes, runtime_history := runtime_history
      endpoint_history := endpoint_history, capability_history := capability_history, next_id := next_id
      index_by_kind := index_by_kind, index_by_service := index_by_service, index_by_boot := index_by_boot
      index_by_node := index_by_node } ∧ r.authority.SameIncarnations authority

namespace DescriptorWrites

/-- The write of a branch, whatever it writes. -/
theorem write (r : Registry) {authority} (h : r.authority.SameIncarnations authority) (accounting services runtimes
    runtime_instances endpoints protocols backends devices capabilities nodes runtime_history endpoint_history
    capability_history next_id index_by_kind index_by_service index_by_boot index_by_node) :
    DescriptorWrites r { r with
      authority := authority, accounting := accounting, services := services, runtimes := runtimes
      runtime_instances := runtime_instances, endpoints := endpoints, protocols := protocols, backends := backends
      devices := devices, capabilities := capabilities, nodes := nodes, runtime_history := runtime_history
      endpoint_history := endpoint_history, capability_history := capability_history, next_id := next_id
      index_by_kind := index_by_kind, index_by_service := index_by_service, index_by_boot := index_by_boot
      index_by_node := index_by_node } :=
  ⟨_, _, _, _, _, _, _, _, _, _, _, _, _, _, _, _, _, _, _, rfl, h⟩

theorem refl (r : Registry) : DescriptorWrites r r := write r (.refl _) ..

theorem trans {r s t : Registry} (h₁ : DescriptorWrites r s) (h₂ : DescriptorWrites s t) : DescriptorWrites r t := by
  obtain ⟨_, _, _, _, _, _, _, _, _, _, _, _, _, _, _, _, _, _, _, rfl, ha⟩ := h₁
  obtain ⟨_, _, _, _, _, _, _, _, _, _, _, _, _, _, _, _, _, _, _, rfl, hb⟩ := h₂
  exact write r (ha.trans hb) ..

theorem rebuild_indexes (r : Registry) : DescriptorWrites r r.rebuild_indexes := by
  obtain ⟨_, _, _, _, h⟩ := rebuild_indexes_writes r
  rw [h]
  exact write r (.refl _) ..

theorem commit (r : Registry) : DescriptorWrites r r.commit_registry_generation :=
  ⟨_, _, _, _, _, _, _, _, _, _, _, _, _, _, _, _, _, _, _, rfl, ⟨rfl, rfl, rfl, rfl⟩⟩

variable {tag : IdTag} {gen : GenTag} {ρ : Type}

/-- A registration is in the class if what its domain does is. -/
theorem registerRecord {D : Domain tag gen ρ} {x : ρ}
    (hraise : ∀ g (a : RegistryAuthority), a.SameIncarnations (D.raise g a)) (hreplace : ∀ current x s, DescriptorWrites s (D.replace current x s))
    (hinsert : ∀ x s, DescriptorWrites s (D.insert x s)) (hfinish : ∀ s, DescriptorWrites s (D.finish s)) :
    DescriptorWrites r (registerRecord D r x env).2 := by
  have hcommit : ∀ x s, DescriptorWrites s (D.commit x s).2 := fun x s =>
    (write s (hraise (D.generation x) s.authority) ..).trans ((commit _).trans (hfinish _))
  have hassign : DescriptorWrites r (D.assign x r).2 := by
    unfold Domain.assign
    split
    · split_ifs
      · exact write r (.refl _) ..
      · exact refl r
    · exact refl r
  refine registerRecord_rule D (P := fun o => DescriptorWrites r o.2) ?_ ?_ ?_ ?_ ?_ ?_
  · exact fun _ _ => refl r
  · exact fun _ _ _ _ _ => refl r
  · exact fun _ _ _ _ => write r (.refl _) ..
  · exact fun _ _ _ _ => (hreplace _ _ r).trans (hcommit _ _)
  · exact fun _ _ _ _ => write r (.refl _) ..
  · exact fun _ _ _ => hassign.trans ((hinsert _ _).trans (hcommit _ _))

end DescriptorWrites

/-! ## Leases -/

/-- `t` is `r` but for what the lease calls can write. -/
def LeaseWrites (r t : Registry) : Prop :=
  ∃ authority accounting leases next_id,
    t = { r with authority := authority, accounting := accounting, leases := leases, next_id := next_id } ∧
      r.authority.SameIncarnations authority

theorem LeaseWrites.refl (r : Registry) : LeaseWrites r r := ⟨_, _, _, _, rfl, .refl _⟩

theorem LeaseWrites.acquire_lease (lease : LeaseDescriptor) : LeaseWrites r (r.acquire_lease lease env).2 := by
  refine authorized_rule (P := fun o => LeaseWrites r o.2) (fun _ _ => refl r) fun _ => ?_
  dsimp only
  split <;> exact ⟨_, _, _, _, rfl, ⟨rfl, rfl, rfl, rfl⟩⟩

theorem LeaseWrites.renew_lease (id : LeaseId) : LeaseWrites r (r.renew_lease id env).2 := by
  refine renew_lease_rule (P := fun o => LeaseWrites r o.2) ?_ ?_ ?_ ?_ <;> intros
  · exact refl r
  · exact refl r
  · exact ⟨_, _, _, _, rfl, .refl _⟩
  · exact ⟨_, _, _, _, rfl, ⟨rfl, rfl, rfl, rfl⟩⟩

theorem LeaseWrites.endLease (id : LeaseId) (state : LeaseState) : LeaseWrites r (r.endLease id state env).2 := by
  refine endLease_rule (P := fun o => LeaseWrites r o.2) ?_ ?_ ?_ ?_ <;> intros
  · exact refl r
  · exact refl r
  · exact ⟨_, _, _, _, rfl, ⟨rfl, rfl, rfl, rfl⟩⟩
  · exact ⟨_, _, _, _, rfl, ⟨rfl, rfl, rfl, rfl⟩⟩

theorem LeaseWrites.mark_lease_revalidation_required (id : LeaseId) :
    LeaseWrites r (r.mark_lease_revalidation_required id) :=
  mark_lease_revalidation_required_rule (P := LeaseWrites r) (refl r) fun _ _ _ => ⟨_, _, _, _, rfl, .refl _⟩

/-! ## Tombstones and invalidations -/

/-- `t` is `r` but for what a tombstone call can write. -/
def TombstoneWrites (r t : Registry) : Prop :=
  ∃ authority accounting tombstones next_id,
    t = { r with authority := authority, accounting := accounting, tombstones := tombstones, next_id := next_id } ∧
      r.authority.SameIncarnations authority

theorem TombstoneWrites.create_tombstone (tomb : TombstoneRecord) :
    TombstoneWrites r (r.create_tombstone tomb env).2 := by
  refine authorized_rule (P := fun o => TombstoneWrites r o.2) (fun _ _ => ⟨_, _, _, _, rfl, .refl _⟩) fun _ => ?_
  dsimp only
  split <;> exact ⟨_, _, _, _, rfl, ⟨rfl, rfl, rfl, rfl⟩⟩

/-- `t` is `r` but for what an invalidation or a counted query can write. -/
def NoteWrites (r t : Registry) : Prop :=
  ∃ authority accounting invalidations,
    t = { r with authority := authority, accounting := accounting, invalidations := invalidations } ∧
      r.authority.SameIncarnations authority

theorem NoteWrites.refl (r : Registry) : NoteWrites r r := ⟨_, _, _, rfl, .refl _⟩

theorem NoteWrites.invalidate (record : InvalidationRecord) : NoteWrites r (r.invalidate record env).2 :=
  authorized_rule (P := fun o => NoteWrites r o.2) (fun _ _ => refl r) fun _ => ⟨_, _, _, rfl, ⟨rfl, rfl, rfl, rfl⟩⟩

end Registry

/-! ## The classes -/

inductive OpClass
  | descriptor | inst | lease | tombstone | note | incarnation | image
deriving DecidableEq

def Op.class : Op → OpClass
  | .begin_coordinator_epoch | .adopt_worker _ | .mark_worker_died _ => .incarnation
  | .register_service _ _ | .register_runtime _ _ | .register_endpoint _ _ | .register_capability _ _
  | .register_backend _ _ | .register_device _ _ | .register_protocol _ _ | .register_node _ _ => .descriptor
  | .register_instance _ _ | .update_health _ _ _ | .update_readiness _ _ _ | .update_freshness _ _ _
  | .update_reachability _ _ _ | .update_instance_reachability _ _ _ | .supersede _ _ _ | .deregister _ _ => .inst
  | .acquire_lease _ _ | .renew_lease _ _ | .expire_lease _ _ | .revoke_lease _ _
  | .mark_lease_revalidation_required _ => .lease
  | .create_tombstone _ _ => .tombstone
  | .invalidate _ _ | .set_worker_health_reporting _ _ | .query _ | .query_and_account _ | .serialize => .note
  | .load_from _ => .image

theorem Op.eq_load_from {op : Op} (h : op.class = .image) : ∃ data, op = .load_from data := by
  cases op <;> simp only [Op.class, reduceCtorEq] at h
  case load_from data => exact ⟨data, rfl⟩

theorem Event.noLoad.class_ne {e : Event} (h : e.noLoad) : e.op.class ≠ .image := by
  intro hc
  obtain ⟨data, hop⟩ := Op.eq_load_from hc
  exact h data hop

namespace Registry

/-- What the calls of a class can write. -/
def Writes : OpClass → Registry → Registry → Prop
  | .descriptor => DescriptorWrites
  | .inst => InstanceWrites
  | .lease => LeaseWrites
  | .tombstone => TombstoneWrites
  | .note => NoteWrites
  | .incarnation | .image => fun _ _ => True

/-- Every call writes what its class can write. -/
theorem exec_writes (r : Registry) (scan : List ServiceInstanceId) (op : Op) : Writes op.class r (r.exec scan op).2 := by
  cases op with
  | begin_coordinator_epoch | adopt_worker | mark_worker_died | load_from => trivial
  | register_service svc env =>
    simp only [exec, Outcome.map_snd, register_service, Outcome.void_snd]
    exact DescriptorWrites.registerRecord (fun _ _ => ⟨rfl, rfl, rfl, rfl⟩) (fun _ _ s => .write s (.refl _) ..)
      (fun _ s => .write s (.refl _) ..) .rebuild_indexes
  | register_runtime rt env =>
    exact DescriptorWrites.registerRecord (fun _ _ => ⟨rfl, rfl, rfl, rfl⟩) (fun _ _ s => .write s (.refl _) ..)
      (fun _ s => .write s (.refl _) ..) .refl
  | register_endpoint ep env =>
    exact DescriptorWrites.registerRecord (fun _ _ => ⟨rfl, rfl, rfl, rfl⟩) (fun _ _ s => .write s (.refl _) ..)
      (fun _ s => .write s (.refl _) ..) .refl
  | register_capability cap env =>
    exact DescriptorWrites.registerRecord (fun _ _ => ⟨rfl, rfl, rfl, rfl⟩) (fun _ _ s => .write s (.refl _) ..)
      (fun _ s => .write s (.refl _) ..) .refl
  | register_backend bd env =>
    exact DescriptorWrites.registerRecord (fun _ _ => ⟨rfl, rfl, rfl, rfl⟩) (fun _ _ s => .write s (.refl _) ..)
      (fun _ s => .write s (.refl _) ..) .refl
  | register_device dd env =>
    exact DescriptorWrites.registerRecord (fun _ _ => ⟨rfl, rfl, rfl, rfl⟩) (fun _ _ s => .write s (.refl _) ..)
      (fun _ s => .write s (.refl _) ..) .refl
  | register_protocol pd env =>
    simp only [exec, Outcome.map_snd, register_protocol, Outcome.void_snd]
    exact DescriptorWrites.registerRecord (fun _ _ => ⟨rfl, rfl, rfl, rfl⟩) (fun _ _ s => .write s (.refl _) ..)
      (fun _ s => .write s (.refl _) ..) .refl
  | register_node nd env =>
    simp only [exec, Outcome.map_snd, register_node, Outcome.void_snd]
    exact DescriptorWrites.registerRecord (fun _ _ => ⟨rfl, rfl, rfl, rfl⟩) (fun _ _ s => .write s (.refl _) ..)
      (fun _ s => .write s (.refl _) ..) .refl
  | register_instance inst env => exact InstanceWrites.register_instance r scan inst env
  | update_health id h env => exact InstanceWrites.updateInstance r id _ _ env
  | update_readiness id rd env => exact InstanceWrites.updateInstance r id _ _ env
  | update_freshness id f env => exact InstanceWrites.updateInstance r id _ _ env
  | update_reachability id rc env => exact InstanceWrites.update_reachability r id rc env
  | update_instance_reachability id rc env => exact InstanceWrites.updateInstance r id _ _ env
  | supersede old_id inst env => exact InstanceWrites.supersede r scan old_id inst env
  | deregister id env => exact InstanceWrites.deregister r id env
  | acquire_lease lease env => exact LeaseWrites.acquire_lease lease
  | renew_lease id env => exact LeaseWrites.renew_lease id
  | expire_lease id env => exact LeaseWrites.endLease id _
  | revoke_lease id env => exact LeaseWrites.endLease id _
  | mark_lease_revalidation_required id => exact LeaseWrites.mark_lease_revalidation_required id
  | create_tombstone tomb env => exact TombstoneWrites.create_tombstone tomb
  | invalidate record env => exact NoteWrites.invalidate record
  | set_worker_health_reporting | query | serialize => exact NoteWrites.refl r
  | query_and_account q => exact ⟨_, _, _, rfl, .refl _⟩

variable {r : Registry}

/-- The instance calls leave the incarnations alone. -/
theorem InstanceWrites.sameIncarnations {t : Registry} (h : InstanceWrites r t) :
    r.authority.SameIncarnations t.authority := by
  obtain ⟨_, _, _, _, _, _, _, _, _, _, _, _, rfl⟩ := h
  exact ⟨rfl, rfl, rfl, rfl⟩

/-- What a call of the class leaves as it was. -/
structure Frame (c : OpClass) (r t : Registry) : Prop where
  incarnations : c ≠ .incarnation → r.authority.SameIncarnations t.authority ∧ t.next_boot = r.next_boot
  instances : c ≠ .inst → c ≠ .incarnation → t.instances = r.instances
  instance_history : c ≠ .inst → t.instance_history = r.instance_history
  endpoints : c ≠ .descriptor → c ≠ .inst → c ≠ .incarnation → t.endpoints = r.endpoints
  leases : c ≠ .lease → c ≠ .incarnation → t.leases = r.leases
  tombstones : c ≠ .tombstone → t.tombstones = r.tombstones
  invalidations : c ≠ .note → t.invalidations = r.invalidations

/-- A new epoch and the death of a boot write what incarnations are about. -/
theorem incarnation_frame (scan : List ServiceInstanceId) {op : Op} (hc : op.class = .incarnation) :
    Frame .incarnation r (r.exec scan op).2 := by
  have hwritten : ∀ {authority instances endpoints capabilities leases accounting next_boot}, Frame .incarnation r { r with
      authority := authority, instances := instances, endpoints := endpoints, capabilities := capabilities
      leases := leases, accounting := accounting, next_boot := next_boot } :=
    { incarnations := fun h => absurd rfl h
      instances := fun _ h => absurd rfl h
      instance_history := fun _ => rfl
      endpoints := fun _ _ h => absurd rfl h
      leases := fun _ h => absurd rfl h
      tombstones := fun _ => rfl
      invalidations := fun _ => rfl }
  cases op <;> simp only [Op.class, reduceCtorEq] at hc
  case begin_coordinator_epoch => exact hwritten
  case adopt_worker worker =>
    obtain ⟨_, _, _, _, _, h⟩ := adopt_worker_writes r worker
    simp only [exec, h]
    exact hwritten
  case mark_worker_died boot =>
    obtain ⟨_, _, _, _, h⟩ := revoke_writes r boot
    simp only [exec, mark_worker_died, h]
    exact hwritten

/-- Every call other than `load_from` leaves what its class leaves. -/
theorem exec_frame (r : Registry) (scan : List ServiceInstanceId) {op : Op} (himage : op.class ≠ .image) :
    Frame op.class r (r.exec scan op).2 := by
  have h := r.exec_writes scan op
  rcases hc : op.class <;> rw [hc] at h
  case descriptor =>
    obtain ⟨_, _, _, _, _, _, _, _, _, _, _, _, _, _, _, _, _, _, _, h, ha⟩ := h
    rw [h]
    exact ⟨fun _ => ⟨ha, rfl⟩, fun _ _ => rfl, fun _ => rfl, fun h => absurd rfl h, fun _ _ => rfl, fun _ => rfl,
      fun _ => rfl⟩
  case inst =>
    have ha := h.sameIncarnations
    obtain ⟨_, _, _, _, _, _, _, _, _, _, _, _, h⟩ := h
    rw [h] at ha ⊢
    exact ⟨fun _ => ⟨ha, rfl⟩, fun h => absurd rfl h, fun h => absurd rfl h, fun _ h => absurd rfl h, fun _ _ => rfl,
      fun _ => rfl, fun _ => rfl⟩
  case lease =>
    obtain ⟨_, _, _, _, h, ha⟩ := h
    rw [h]
    exact ⟨fun _ => ⟨ha, rfl⟩, fun _ _ => rfl, fun _ => rfl, fun _ _ _ => rfl, fun h => absurd rfl h, fun _ => rfl,
      fun _ => rfl⟩
  case tombstone =>
    obtain ⟨_, _, _, _, h, ha⟩ := h
    rw [h]
    exact ⟨fun _ => ⟨ha, rfl⟩, fun _ _ => rfl, fun _ => rfl, fun _ _ _ => rfl, fun _ _ => rfl, fun h => absurd rfl h,
      fun _ => rfl⟩
  case note =>
    obtain ⟨_, _, _, h, ha⟩ := h
    rw [h]
    exact ⟨fun _ => ⟨ha, rfl⟩, fun _ _ => rfl, fun _ => rfl, fun _ _ _ => rfl, fun _ _ => rfl, fun _ => rfl,
      fun h => absurd rfl h⟩
  case incarnation => exact incarnation_frame scan hc
  case image => exact absurd hc himage

/-- Only an adoption, a death, a new epoch and `load_from` change incarnations. -/
theorem exec_incarnations (scan : List ServiceInstanceId) (op : Op) (h₁ : op.class ≠ .incarnation) (h₂ : op.class ≠ .image) :
    r.authority.SameIncarnations (r.exec scan op).2.authority ∧ (r.exec scan op).2.next_boot = r.next_boot :=
  (r.exec_frame scan h₂).incarnations h₁

/-- Only `create_tombstone` and `load_from` write tombstones. -/
theorem exec_tombstones (scan : List ServiceInstanceId) (op : Op) (h₁ : op.class ≠ .tombstone) (h₂ : op.class ≠ .image) :
    (r.exec scan op).2.tombstones = r.tombstones := (r.exec_frame scan h₂).tombstones h₁

end Registry

end RuntimeRegistry
