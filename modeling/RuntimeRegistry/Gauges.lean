import RuntimeRegistry.Lib.Tallies
import RuntimeRegistry.Available
import RuntimeRegistry.Claiming
import RuntimeRegistry.Population
import RuntimeRegistry.Targets
/-!
# Status gauges

`active_leases` and `available_instances` say how many leases are active and how many
instances are available. No line moves the second one up, so it is exact where no
instance is available. The first is exact in the runs that renew active leases only,
acquire no lease over an active one and begin no epoch while a lease is active.
-/
open Lib

namespace RuntimeRegistry

/-- The calls that can put a gauge off. -/
def Op.gauged : Op → Bool
  | .acquire_lease _ _ | .renew_lease _ _ | .begin_coordinator_epoch | .register_instance _ _ | .supersede _ _ _
  | .update_health _ _ _ | .update_readiness _ _ _ | .update_freshness _ _ _ | .update_instance_reachability _ _ _
  | .update_reachability _ _ _ | .load_from _ => true
  | _ => false

/-- An instance that is not ready. -/
def Sample.unready : ServiceInstance := { Sample.incarnation 5 1 with readiness := Readiness.NOT_READY }

namespace Registry

variable {r s t : Registry} {env : AuthorityEnvelope} {scan : List ServiceInstanceId} {inst : ServiceInstance}

def isActive (lease : LeaseDescriptor) : Bool := lease.state = LeaseState.ACTIVE

/-- The stored leases that are active. -/
def countActive (r : Registry) : ℕ := Table.tally isActive r.leases

/-- Both gauges show what the maps hold. -/
structure Gauged (r : Registry) : Prop where
  active_leases : r.accounting.active_leases = r.countActive
  available_instances : r.accounting.available_instances = r.countLifecycle .AVAILABLE

/-! ## What a call does to the gauges -/

/-- No lease gauge has moved, and an empty gauge of instances is empty still. -/
structure Steady (r t : Registry) : Prop where
  active_leases : t.accounting.active_leases = r.accounting.active_leases
  available_instances : r.accounting.available_instances = 0 → t.accounting.available_instances = 0

theorem Steady.write (h : t.accounting.active_leases = r.accounting.active_leases)
    (h' : t.accounting.available_instances = r.accounting.available_instances) : r.Steady t :=
  ⟨h, fun h0 => h'.trans h0⟩

theorem Steady.refl (r : Registry) : r.Steady r := .write rfl rfl

theorem Steady.trans (h : r.Steady s) (h' : s.Steady t) : r.Steady t :=
  ⟨h'.1.trans h.1, fun h0 => h'.2 (h.2 h0)⟩

/-- The gauge of instances moves down, and not below zero. -/
theorem Steady.decremented (h : t.accounting.active_leases = r.accounting.active_leases)
    (h' : t.accounting.available_instances = decrement r.accounting.available_instances) : r.Steady t := by
  refine ⟨h, fun h0 => ?_⟩
  rw [h', h0]
  rfl

theorem Steady.rebuild_indexes (r : Registry) : r.Steady r.rebuild_indexes := by
  obtain ⟨_, _, _, _, h⟩ := rebuild_indexes_writes r
  rw [h]
  exact .write rfl rfl

section
variable {tag : IdTag} {gen : GenTag} {ρ : Type}

theorem registerRecord_steady {D : Domain tag gen ρ} {x : ρ}
    (hreplace : ∀ current y s, Steady s (D.commit y (D.replace current y s)).2)
    (hinsert : ∀ y s, Steady s (D.commit y (D.insert y s)).2) : r.Steady (registerRecord D r x env).2 := by
  apply registerRecord_rule D (P := fun o => r.Steady o.2)
  case rejected => exact fun _ _ => .refl r
  case repeated => exact fun _ _ _ _ _ => .refl r
  case stale => exact fun _ _ _ _ => .write rfl rfl
  case replaced => exact fun _ current _ _ => hreplace current x r
  case fenced => exact fun _ _ _ _ => .write rfl rfl
  case inserted =>
    intro _ _ _
    obtain ⟨n, hnext⟩ := D.assign_next x r
    rw [hnext]
    have hassign : r.Steady { r with next_id := n } := .write rfl rfl
    exact hassign.trans (hinsert _ _)

end

theorem descriptor_steady {op : Op} (hc : op.class = .descriptor) : r.Steady (r.exec scan op).2 := by
  obtain ⟨_, _, _, D, x, env, h⟩ := exists_registers hc
  rw [h.state]
  cases h
  case service =>
    refine registerRecord_steady (fun _ _ _ => Steady.trans ?_ (.rebuild_indexes _)) fun _ _ =>
      Steady.trans ?_ (.rebuild_indexes _)
    · exact .write rfl rfl
    · exact .write rfl rfl
  all_goals exact registerRecord_steady (fun _ _ _ => .write rfl rfl) fun _ _ => .write rfl rfl

theorem bindInstance_steady (r : Registry) (copy : ServiceInstance) : r.Steady (r.bindInstance copy).2 := by
  obtain ⟨_, _, hclaims⟩ := claimEndpoints_writes copy.instance_id copy.endpoints r
  have hclaimed : r.Steady (r.claimEndpoints copy.instance_id copy.endpoints).2 := by
    rw [hclaims]
    exact .write rfl rfl
  apply bindInstance_rule (P := fun o => r.Steady o.2)
  case refused =>
    intro e u hu
    rwa [hu] at hclaimed
  case stored =>
    intro u hu
    rw [hu] at hclaimed
    have hstored : u.Steady (u.storeInstance copy) := by
      unfold storeInstance
      refine Steady.trans ?_ (.rebuild_indexes _)
      exact .write rfl rfl
    exact hclaimed.trans hstored

theorem register_instance_steady : r.Steady (r.register_instance scan inst env).2 := by
  have hnext : r.Steady { r with next_id := r.assignedNext inst } := .write rfl rfl
  apply register_instance_state_rule (P := r.Steady)
  case kept => exact fun _ _ _ => .write rfl rfl
  case superseded =>
    intro _ _ id current _ _
    have hsuperseded : r.Steady ({ r with next_id := r.assignedNext inst }.supersedeCurrent id current) :=
      .decremented rfl rfl
    exact hsuperseded.trans (bindInstance_steady _ _)
  case first => exact fun _ _ _ _ => hnext.trans (bindInstance_steady _ _)

theorem supersede_steady {old_id : ServiceInstanceId} : r.Steady (r.supersede scan old_id inst env).2 := by
  have hregistered : ∀ old, r.Steady ((r.markSuperseded old_id old).register_instance scan inst env).2 := by
    intro old
    have hmarked : r.Steady (r.markSuperseded old_id old) := .decremented rfl rfl
    exact hmarked.trans register_instance_steady
  apply supersede_rule (P := fun o => r.Steady o.2)
  case rejected => exact fun _ _ => .refl r
  case unknown => exact fun _ _ _ => .refl r
  case refused =>
    intro _ old _ e u hu
    have hsteady := hregistered old
    rwa [hu] at hsteady
  case registered =>
    intro _ old _ id u hu
    have hsteady := hregistered old
    rw [hu] at hsteady
    exact hsteady.trans (.write rfl rfl)

theorem updateInstance_steady {id : ServiceInstanceId} {write : ServiceInstance → ServiceInstance} {stale : RegistryError} :
    r.Steady (r.updateInstance id write stale env).2 := by
  apply updateInstance_rule (P := fun o => r.Steady o.2)
  case rejected => exact fun _ _ => .refl r
  case unknown => exact fun _ _ _ => .refl r
  case superseded => exact fun _ _ _ _ => .write rfl rfl
  case updated => exact fun _ _ _ _ => .write rfl rfl

theorem update_reachability_steady {id : EndpointId} {rc : Enum Reachability} :
    r.Steady (r.update_reachability id rc env).2 := by
  apply update_reachability_rule (P := fun o => r.Steady o.2)
  case rejected => exact fun _ _ => .refl r
  case unknown => exact fun _ _ _ => .refl r
  case stale => exact fun _ _ _ _ _ => .write rfl rfl
  case updated =>
    intro _ ep _ _
    exact reclassifyOwner_rule (P := fun u => r.Steady u.commit_registry_generation) _ (.write rfl rfl)
      fun _ _ _ => .write rfl rfl

theorem deregister_steady {id : ServiceInstanceId} : r.Steady (r.deregister id env).2 := by
  apply deregister_rule (P := fun o => r.Steady o.2)
  case rejected => exact fun _ _ => .refl r
  case unknown => exact fun _ _ => .refl r
  case stale => exact fun _ _ _ _ _ => .write rfl rfl
  case retired => exact fun _ _ _ _ => .decremented rfl rfl

theorem inst_steady {op : Op} (hc : op.class = .inst) : r.Steady (r.exec scan op).2 := by
  cases op <;> simp only [Op.class, reduceCtorEq] at hc
  case register_instance inst env => exact register_instance_steady
  case supersede old_id inst env => exact supersede_steady
  case update_reachability id rc env => exact update_reachability_steady
  case deregister id env => exact deregister_steady
  all_goals exact updateInstance_steady

theorem create_tombstone_steady {tomb : TombstoneRecord} : r.Steady (r.create_tombstone tomb env).2 := by
  apply authorized_rule (P := fun o => r.Steady o.2)
  case rejected => exact fun _ _ => .refl r
  case accepted =>
    intro _
    dsimp only
    split
    · exact .write rfl rfl
    · exact .write rfl rfl

theorem invalidate_steady {record : InvalidationRecord} : r.Steady (r.invalidate record env).2 :=
  authorized_rule (P := fun o => r.Steady o.2) (fun _ _ => .refl r) fun _ => .write rfl rfl

theorem query_and_account_steady (q : RegistryQuery) : r.Steady (r.query_and_account scan q).2 := by
  unfold query_and_account
  apply Steady.write
  · dsimp only
    split <;> rfl
  · dsimp only
    split <;> rfl

theorem note_steady {op : Op} (hc : op.class = .tombstone ∨ op.class = .note) : r.Steady (r.exec scan op).2 := by
  cases op <;> simp only [Op.class, reduceCtorEq, or_self] at hc
  case create_tombstone tomb env => exact create_tombstone_steady
  case invalidate record env => exact invalidate_steady
  case query_and_account q => exact query_and_account_steady q
  all_goals exact .refl r

/-- A call that is not about leases or incarnations moves no gauge of leases. -/
theorem exec_steady {op : Op} (himage : op.class ≠ .image) (hlease : op.class ≠ .lease)
    (hincarnation : op.class ≠ .incarnation) : r.Steady (r.exec scan op).2 := by
  rcases hc : op.class
  case descriptor => exact descriptor_steady hc
  case inst => exact inst_steady hc
  case tombstone => exact note_steady (.inl hc)
  case note => exact note_steady (.inr hc)
  case lease => exact absurd hc hlease
  case incarnation => exact absurd hc hincarnation
  case image => exact absurd hc himage

/-! ## Leases -/

/-- The gauge of leases is exact. -/
def LeaseGauge (r : Registry) : Prop := r.accounting.active_leases = r.countActive

/-- The gauge of leases stays exact, and the one of instances where it was. -/
def KeepsLeases (r t : Registry) : Prop :=
  r.LeaseGauge → t.LeaseGauge ∧ t.accounting.available_instances = r.accounting.available_instances

theorem KeepsLeases.write (h : t.accounting.active_leases = r.accounting.active_leases) (hl : t.leases = r.leases)
    (h' : t.accounting.available_instances = r.accounting.available_instances) : r.KeepsLeases t := by
  intro hr
  rw [LeaseGauge, countActive] at hr ⊢
  exact ⟨by rw [h, hl, hr], h'⟩

theorem KeepsLeases.refl (r : Registry) : r.KeepsLeases r := fun h => ⟨h, rfl⟩

theorem KeepsLeases.trans (h : r.KeepsLeases s) (h' : s.KeepsLeases t) : r.KeepsLeases t :=
  fun hr => ⟨(h' (h hr).1).1, (h' (h hr).1).2.trans (h hr).2⟩

/-- An active lease ends, and the gauge moves down with the count. -/
theorem LeaseGauge.ended {l : LeaseId} {old new : LeaseDescriptor} (h : r.LeaseGauge) (hold : r.leases[l]? = some old)
    (hactive : old.state = LeaseState.ACTIVE) (hnew : new.state ≠ LeaseState.ACTIVE) :
    decrement r.accounting.active_leases = Table.tally isActive (r.leases.insert l new) := by
  have hloss : Table.tally isActive (r.leases.insert l new) + 1 = r.countActive :=
    Table.tally_loss hold (decide_eq_true hactive) (decide_eq_false hnew)
  rw [LeaseGauge] at h
  rw [decrement, if_pos (by omega)]
  omega

theorem endLease_gauge {id : LeaseId} {state : LeaseState} (hstate : state ≠ .ACTIVE) :
    r.KeepsLeases (r.endLease id state env).2 := by
  apply endLease_rule (P := fun o => r.KeepsLeases o.2)
  case rejected => exact fun _ _ => .refl r
  case unknown => exact fun _ _ => .refl r
  case inactive => exact fun _ _ _ _ => .write rfl rfl rfl
  case ended =>
    intro _ lease hold hactive hr
    exact ⟨hr.ended hold hactive fun h => hstate (Enum.named.inj h), rfl⟩

theorem mark_lease_gauge (id : LeaseId) : r.KeepsLeases (r.mark_lease_revalidation_required id) := by
  apply mark_lease_revalidation_required_rule (P := r.KeepsLeases)
  case kept => exact .refl r
  case marked =>
    intro lease hold hactive hr
    exact ⟨hr.ended hold hactive nofun, rfl⟩

theorem renew_lease_gauge {id : LeaseId} (h : ∀ lease, r.Renewable id env lease → lease.state = LeaseState.ACTIVE) :
    r.KeepsLeases (r.renew_lease id env).2 := by
  apply authorized_rule (P := fun o => r.KeepsLeases o.2)
  case rejected => exact fun _ _ => .refl r
  case accepted =>
    intro ha
    split
    · exact .refl r
    · rename_i lease hold
      split_ifs with hrevoked hboot hgen
      · exact .write rfl rfl rfl
      · exact .write rfl rfl rfl
      · exact .write rfl rfl rfl
      · have hrenewable : r.Renewable id env lease :=
          { accepts := ha
            stored := hold
            not_revoked := hrevoked
            own_boot := fun inst hi => by simpa [hi] using hboot
            own_generation := or_iff_not_imp_left.2 fun h0 => not_not.1 fun hne => hgen ⟨h0, hne⟩ }
        intro hr
        have hsame : Table.tally isActive (r.leases.insert id { lease with state := LeaseState.ACTIVE }) = r.countActive :=
          Table.tally_same hold (by rw [isActive, isActive, h lease hrenewable])
        exact ⟨hr.trans (congrArg Nat.cast hsame.symm), rfl⟩

/-- What an acquired lease does to the gauge, stored where no active lease stood. -/
theorem LeaseGauge.acquired {l : LeaseId} (h : r.LeaseGauge)
    (hold : ∀ old, r.leases[l]? = some old → old.state ≠ LeaseState.ACTIVE) (new : LeaseDescriptor) :
    (if new.state = LeaseState.ACTIVE then r.accounting.active_leases + 1 else r.accounting.active_leases) =
      Table.tally isActive (r.leases.insert l new) := by
  have hinactive : ∀ old, r.leases[l]? = some old → isActive old = false := fun old ho => decide_eq_false (hold old ho)
  rw [LeaseGauge, countActive] at h
  split_ifs with hactive
  · rw [Table.tally_gain hinactive (decide_eq_true hactive), h]
    rfl
  · rw [Table.tally_idle hinactive (decide_eq_false hactive), h]

theorem acquire_lease_gauge {lease : LeaseDescriptor} (h : r.Accepts env → ∀ old,
    r.leases[r.assignedLease lease]? = some old → old.state ≠ LeaseState.ACTIVE) :
    r.KeepsLeases (r.acquire_lease lease env).2 := by
  apply authorized_rule (P := fun o => r.KeepsLeases o.2)
  case rejected => exact fun _ _ => .refl r
  case accepted =>
    intro ha hr
    have hold := h ha
    unfold assignedLease at hold
    by_cases hzero : lease.lease_id.value = 0
    · simp only [if_pos hzero] at hold ⊢
      exact ⟨hr.acquired hold { lease with lease_id := ⟨r.next_id⟩, generation := r.authority.lease_gen.succ }, rfl⟩
    · simp only [if_neg hzero] at hold ⊢
      exact ⟨hr.acquired hold { lease with generation := r.authority.lease_gen.succ }, rfl⟩

/-! ## Incarnations -/

theorem expireLeaseOf_gauge (r : Registry) (inst : ServiceInstance) : r.KeepsLeases (r.expireLeaseOf inst) := by
  unfold expireLeaseOf
  split_ifs
  · split
    · rename_i lease hold
      split_ifs with hactive
      · exact fun hr => ⟨hr.ended hold hactive nofun, rfl⟩
      · exact .refl r
    · exact .refl r
  · exact .refl r

theorem revokeInstance_gauge (r : Registry) (boot : WorkerBootId) (id : ServiceInstanceId) :
    r.KeepsLeases (revokeInstance boot r id) := by
  unfold revokeInstance
  split
  · rename_i inst _
    split_ifs
    · exact (r.expireLeaseOf_gauge inst).trans (.write rfl rfl rfl)
    · exact .refl r
  · exact .refl r

theorem revoke_gauge (r : Registry) (boot : WorkerBootId) : r.KeepsLeases (r.revoke_boot_internal boot) := by
  have hwalk : ∀ (ids : List ServiceInstanceId) (s : Registry), s.KeepsLeases (ids.foldl (revokeInstance boot) s) := by
    intro ids
    induction ids with
    | nil => exact fun s => .refl s
    | cons id ids ih => exact fun s => (s.revokeInstance_gauge boot id).trans (ih _)
  unfold revoke_boot_internal
  split_ifs
  · have hauthority : r.KeepsLeases { r with authority := revokeAuthority r.authority boot } := .write rfl rfl rfl
    exact hauthority.trans (hwalk _ _)
  · exact .refl r

theorem adopt_worker_gauge (worker : WorkerId) : r.KeepsLeases (r.adopt_worker worker).2 := by
  have hboot : r.KeepsLeases { r with next_boot := r.next_boot + 1 } := .write rfl rfl rfl
  apply adopt_worker_rule (P := r.KeepsLeases)
  case first => exact fun _ => hboot.trans (.write rfl rfl rfl)
  case again => exact fun prev _ _ => (hboot.trans (revoke_gauge _ prev)).trans (.write rfl rfl rfl)

/-- A new epoch ends the active leases and moves no gauge. -/
theorem begin_coordinator_epoch_gauge
    (h : ∀ (l : LeaseId) (lease : LeaseDescriptor), r.leases[l]? = some lease → lease.state ≠ LeaseState.ACTIVE) : r.KeepsLeases r.begin_coordinator_epoch := by
  intro hr
  refine ⟨?_, rfl⟩
  have hbefore : r.countActive = 0 := Table.tally_eq_zero fun l lease hl => decide_eq_false (h l lease hl)
  have hafter : r.begin_coordinator_epoch.countActive = 0 := by
    refine Table.tally_eq_zero fun l lease hl => decide_eq_false ?_
    rw [begin_coordinator_epoch, Std.ExtTreeMap.getElem?_map, Option.map_eq_some_iff] at hl
    obtain ⟨old, _, rfl⟩ := hl
    exact revalidateLease_inactive old
  rw [LeaseGauge, hbefore] at hr
  rw [LeaseGauge, hafter]
  exact hr

/-! ## Every call -/

/-- The call moves the gauges with the maps: a lease is acquired over none that is
active, an active lease is renewed, an epoch begins over no active lease, no instance
comes out of a classification as available, and an image is read to its end. -/
structure KeepsGauges (r : Registry) (e : Event) : Prop where
  acquired : ∀ lease env, e.op = .acquire_lease lease env → r.Accepts env → ∀ old,
    r.leases[r.assignedLease lease]? = some old → old.state ≠ LeaseState.ACTIVE
  renewed : ∀ l env lease, e.op = .renew_lease l env → r.Renewable l env lease → lease.state = LeaseState.ACTIVE
  epoch : e.op = .begin_coordinator_epoch → ∀ (l : LeaseId) (lease : LeaseDescriptor), r.leases[l]? = some lease →
    lease.state ≠ LeaseState.ACTIVE
  registered : ∀ inst env, e.op.newInstance = some inst → e.op.envelope = some env → r.Accepts env →
    (e.op.checkedIn r).Admissible e.scan inst →
    ((r.claimed (r.assignedId inst) inst.endpoints).reclassify_lifecycle
      { inst with instance_id := r.assignedId inst }).lifecycle ≠ Lifecycle.AVAILABLE
  updated : ∀ id write old, e.op.updates = some (id, write) → r.Authorizes e.op old → r.instances[id]? = some old →
    (r.reclassify_lifecycle (write old)).lifecycle ≠ Lifecycle.AVAILABLE
  refreshed : ∀ eid rc env ep old, e.op = .update_reachability eid rc env → r.UpdatesEndpoint env eid ep →
    ep.service_instance.value ≠ 0 → r.instances[ep.service_instance]? = some old →
    (reclassify_lifecycle { r with endpoints := r.endpoints.insert eid { ep with reachability := rc } }
      old).lifecycle ≠ Lifecycle.AVAILABLE
  complete : ∀ data, e.op = .load_from data → Admitted data → Complete data

theorem exec_gauge {e : Event} (himage : e.op.class ≠ .image) (hg : r.KeepsGauges e) (hr : r.LeaseGauge)
    (h0 : r.accounting.available_instances = 0) :
    (r.exec e.scan e.op).2.LeaseGauge ∧ (r.exec e.scan e.op).2.accounting.available_instances = 0 := by
  by_cases hmoves : e.op.class = .lease ∨ e.op.class = .incarnation
  · suffices hkept : r.KeepsLeases (r.exec e.scan e.op).2 from ⟨(hkept hr).1, (hkept hr).2.trans h0⟩
    obtain ⟨op, scan, reply⟩ := e
    cases op <;> simp only [Op.class, reduceCtorEq, or_self] at hmoves
    case begin_coordinator_epoch => exact begin_coordinator_epoch_gauge (hg.epoch rfl)
    case adopt_worker worker => exact adopt_worker_gauge worker
    case mark_worker_died boot => exact r.revoke_gauge boot
    case acquire_lease lease env => exact acquire_lease_gauge (hg.acquired lease env rfl)
    case renew_lease id env => exact renew_lease_gauge fun lease => hg.renewed id env lease rfl
    case expire_lease id env => exact endLease_gauge (by decide)
    case revoke_lease id env => exact endLease_gauge (by decide)
    case mark_lease_revalidation_required id => exact mark_lease_gauge id
  · rw [not_or] at hmoves
    have hsteady : r.Steady (r.exec e.scan e.op).2 := exec_steady himage hmoves.1 hmoves.2
    have hleases : (r.exec e.scan e.op).2.leases = r.leases := (r.exec_frame e.scan himage).leases hmoves.1 hmoves.2
    refine ⟨?_, hsteady.2 h0⟩
    rw [LeaseGauge, countActive, hsteady.1, hleases]
    exact hr

/-! ## Availability -/

/-- No stored instance is available. -/
def NoneAvailable (r : Registry) : Prop :=
  ∀ (id : ServiceInstanceId) (inst : ServiceInstance), r.instances[id]? = some inst → inst.lifecycle ≠ Lifecycle.AVAILABLE

theorem NoneAvailable.countLifecycle (h : r.NoneAvailable) : r.countLifecycle .AVAILABLE = 0 := by
  have hnone : ((r.instances.toList.map (·.2)).filter fun inst : ServiceInstance => inst.lifecycle = Lifecycle.AVAILABLE) = [] := by
    rw [List.filter_eq_nil_iff]
    intro inst hmem
    obtain ⟨⟨id, x⟩, hx, rfl⟩ := List.mem_map.1 hmem
    simpa using h id x (Std.ExtTreeMap.mem_toList_iff_getElem?_eq_some.1 hx)
  unfold Registry.countLifecycle
  rw [hnone]
  rfl

/-- A supersession that goes on to the registration leaves the evidence as it does. -/
theorem supersede_evidence {old_id : ServiceInstanceId} {old : ServiceInstance} (ha : r.Accepts env)
    (hold : r.instances[old_id]? = some old) (hadm : (r.markSuperseded old_id old).Admissible scan inst) :
    SameEvidence (r.claimed (r.assignedId inst) inst.endpoints) (r.supersede scan old_id inst env).2 := by
  have hregistered : SameEvidence (r.claimed (r.assignedId inst) inst.endpoints)
      ((r.markSuperseded old_id old).register_instance scan inst env).2 := by
    refine SameEvidence.trans ?_ (register_instance_evidence (r := r.markSuperseded old_id old) ha hadm)
    constructor <;> rfl
  rw [supersede_marked ha hold]
  exact hregistered.trans ⟨rfl, rfl, rfl, rfl, rfl⟩

/-- An admissible registration classifies the instance by the endpoints it claims, unless
it is a supersession of nothing. -/
theorem registration_evidence {e : Event} {env : AuthorityEnvelope} (hnew : e.op.newInstance = some inst)
    (henv : e.op.envelope = some env) (ha : r.Accepts env) (hadm : (e.op.checkedIn r).Admissible e.scan inst) :
    SameEvidence (r.claimed (r.assignedId inst) inst.endpoints) (r.exec e.scan e.op).2 ∨ (r.exec e.scan e.op).2 = r := by
  obtain ⟨op, scan, reply⟩ := e
  cases op <;> simp only [Op.newInstance, Op.envelope, reduceCtorEq, Option.some.injEq] at hnew henv
  case register_instance inst' env' =>
    subst hnew henv
    exact .inl (register_instance_evidence ha hadm)
  case supersede old_id inst' env' =>
    subst hnew henv
    rcases hold : r.instances[old_id]? with _ | old
    · right
      simp only [exec, Outcome.map_snd, supersede, authorized_accepted ha, hold]
    · simp only [Op.checkedIn, hold] at hadm
      exact .inl (supersede_evidence ha hold hadm)

theorem NoneAvailable.exec {e : Event} (h : r.NoneAvailable) (himage : e.op.class ≠ .image) (hg : r.KeepsGauges e) :
    (r.exec e.scan e.op).2.NoneAvailable := by
  intro id inst hi
  rcases hnew : e.op.newInstance with _ | new
  · cases r.exec_change e.scan e.op himage id with
    | kept ht => exact h id inst (ht.symm.trans hi)
    | updated write old hop ha hold ht =>
      rw [Option.some.inj (hi.symm.trans ht), (updates_evidence hop).reclassify]
      exact hg.updated id write old hop ha hold
    | refreshed old hop hold ht =>
      obtain ⟨eid, rc, env, ep, hop, hu, rfl, hne⟩ := hop
      rw [Option.some.inj (hi.symm.trans ht), hop, (update_reachability_evidence hu).reclassify]
      exact hg.refreshed eid rc env ep old hop hu hne hold
    | stored inst' hop => cases hnew.symm.trans hop
    | superseded old _ _ ht =>
      obtain rfl := Option.some.inj (hi.symm.trans ht)
      exact nofun
    | retired _ old _ _ _ ht =>
      obtain rfl := Option.some.inj (hi.symm.trans ht)
      exact nofun
    | dead old _ _ _ ht =>
      obtain rfl := Option.some.inj (hi.symm.trans ht)
      exact nofun
    | revalidated old _ _ ht =>
      obtain rfl := Option.some.inj (hi.symm.trans ht)
      exact revalidate_not_available old
  · obtain ⟨_, env, henv⟩ := newInstance_call hnew
    by_cases ha : r.Accepts env
    · have henters : Enters r (e.op.checkedIn r) e.scan new (r.exec e.scan e.op).2 id := exec_enters hnew id
      cases henters with
      | kept ht => exact h id inst (ht.symm.trans hi)
      | superseded old ht =>
        obtain rfl := Option.some.inj (hi.symm.trans ht)
        exact nofun
      | stored hid hadm ht =>
        rcases registration_evidence hnew henv ha hadm with hclaimed | hkept
        · rw [Option.some.inj (hi.symm.trans ht), hclaimed.reclassify, hid]
          exact hg.registered new env hnew henv ha hadm
        · rw [hkept] at hi
          exact h id inst hi
    · obtain ⟨error, hrejected⟩ := exec_rejected henv ha e.scan
      rw [hrejected] at hi
      exact h id inst hi

theorem restore_noneAvailable (header : Header) (r : Registry) : (restore header r).NoneAvailable := by
  intro id inst hi
  rw [restore_instances, Std.ExtTreeMap.getElem?_map, Option.map_eq_some_iff] at hi
  obtain ⟨old, _, rfl⟩ := hi
  exact revalidate_not_available old

/-! ## Runs -/

/-- The gauge of leases is exact, and there is nothing for the one of instances to show. -/
structure Idle (r : Registry) : Prop where
  leases : r.LeaseGauge
  available_instances : r.accounting.available_instances = 0
  none_available : r.NoneAvailable

theorem Idle.gauged (h : r.Idle) : r.Gauged :=
  ⟨h.leases, h.available_instances.trans h.none_available.countLifecycle.symm⟩

/-- An image read to its end brings no active lease and no available instance. -/
theorem restore_idle (header : Header) (r : Registry) : (restore header r).Idle := by
  obtain ⟨_, _, _, _, hindexes⟩ := rebuild_indexes_writes { r with
    authority := header.authority
    next_boot := header.next_boot
    next_id := header.next_id
    instances := r.instances.map fun _ => recoverInstance
    endpoints := r.endpoints.map fun _ => recoverEndpoint
    capabilities := r.capabilities.map fun _ => recoverCapability
    leases := r.leases.map fun _ => recoverLease }
  have hleases : (restore header r).leases = r.leases.map fun _ => recoverLease := by
    unfold restore
    dsimp only
    rw [hindexes]
  have hnone := restore_noneAvailable header r
  refine ⟨?_, hnone.countLifecycle, hnone⟩
  have hcount : (restore header r).countActive = 0 := by
    refine Table.tally_eq_zero fun l lease hl => decide_eq_false ?_
    rw [hleases, Std.ExtTreeMap.getElem?_map, Option.map_eq_some_iff] at hl
    obtain ⟨old, _, rfl⟩ := hl
    exact revalidateLease_inactive old
  rw [LeaseGauge, hcount]
  rfl

theorem Idle.step {e : Event} (h : r.Idle) (hs : Step r e t) (hg : r.KeepsGauges e) : t.Idle := by
  rw [hs.state]
  by_cases himage : e.op.class = .image
  · obtain ⟨data, hop⟩ := Op.eq_load_from himage
    rw [hop]
    apply load_from_rule (P := Idle)
    case refused => exact fun _ => h
    case broken => exact fun ha hnot => absurd (hg.complete data hop ha) hnot
    case restored => exact fun _ _ => restore_idle _ _
  · obtain ⟨hleases, hzero⟩ := exec_gauge himage hg h.leases h.available_instances
    exact ⟨hleases, hzero, h.none_available.exec himage hg⟩

theorem fresh_idle : fresh.Idle := by
  have hinstances : fresh.instances = ∅ := Std.ExtTreeMap.isEmpty_iff.1 (by decide +kernel)
  refine ⟨by unfold LeaseGauge; decide +kernel, by decide +kernel, fun id inst hi => ?_⟩
  simp [hinstances] at hi

/-- In every run whose calls move the gauges with the maps, both gauges are exact. -/
theorem gauges_exact (h : Lib.Reachable (Guarded Step KeepsGauges) fresh r) : r.Gauged :=
  (h.inv Idle fresh_idle fun _ _ _ hr hst => hr.step hst.1 hst.2).gauged

theorem keepsGauges_of_plain {e : Event} (h : e.op.gauged = false) : r.KeepsGauges e := by
  obtain ⟨op, scan, reply⟩ := e
  cases op <;> simp only [Op.gauged, reduceCtorEq] at h
  all_goals
    exact ⟨fun _ _ h => (nomatch h), fun _ _ _ h => (nomatch h), fun h => (nomatch h), fun _ _ h => (nomatch h),
      fun _ _ _ h => (nomatch h), fun _ _ _ _ _ h => (nomatch h), fun _ h => (nomatch h)⟩

/-- A lease is acquired, an instance that is not ready is registered, and the lease expires. -/
theorem gauges_exact_sample : (fresh.after (Sample.leasing ++
    [.register_instance Sample.unready Sample.env,
      .expire_lease ⟨9⟩ Sample.env])).Gauged := by
  have hmeets : Meets (fun r op => r.KeepsGauges (r.call op)) fresh (Sample.leasing ++
      [.register_instance Sample.unready Sample.env,
        .expire_lease ⟨9⟩ Sample.env]) := by
    have hacquire : ∀ s : Registry, s.leases.isEmpty = true → s.KeepsGauges (s.call (.acquire_lease Sample.owned Sample.env)) := by
      intro s hs
      refine ⟨fun lease env _ _ old hold => ?_, fun _ _ _ h => (nomatch h), fun h => (nomatch h), fun _ _ h => (nomatch h),
        fun _ _ _ h => (nomatch h), fun _ _ _ _ _ h => (nomatch h), fun _ h => (nomatch h)⟩
      rw [Std.ExtTreeMap.isEmpty_iff.1 hs] at hold
      simp at hold
    have hregister : ∀ s : Registry, ((s.claimed ⟨5⟩ []).reclassify_lifecycle Sample.unready).lifecycle ≠ Lifecycle.AVAILABLE →
        s.KeepsGauges (s.call (.register_instance Sample.unready Sample.env)) := by
      intro s hs
      refine ⟨fun _ _ h => (nomatch h), fun _ _ _ h => (nomatch h), fun h => (nomatch h), ?_, fun _ _ _ h => (nomatch h),
        fun _ _ _ _ _ h => (nomatch h), fun _ h => (nomatch h)⟩
      rintro inst env ⟨⟩ _ _ _
      exact hs
    exact ⟨keepsGauges_of_plain rfl, keepsGauges_of_plain rfl, hacquire _ (by decide +kernel),
      hregister _ (by decide +kernel), keepsGauges_of_plain rfl, trivial⟩
  exact gauges_exact hmeets.calls

/-- The one available instance of the sample is not on the gauge, and a lease that
expired and was renewed is not either. -/
theorem gauges_drift :
    (Sample.registry.Reachable ∧ Sample.registry.accounting.available_instances = 0 ∧
      Sample.registry.countLifecycle .AVAILABLE = 1) ∧
    let r := fresh.after (Sample.leasing ++ [.expire_lease ⟨9⟩ Sample.env, .renew_lease ⟨9⟩ Sample.env])
    r.Reachable ∧ r.accounting.active_leases = 0 ∧ r.countActive = 1 :=
  ⟨⟨Sample.registry_reachable.reachable, by decide +kernel, by decide +kernel⟩,
    Reachable.after (.refl _) _, by decide +kernel, by decide +kernel⟩

end Registry

end RuntimeRegistry
