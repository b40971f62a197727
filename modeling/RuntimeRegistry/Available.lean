import RuntimeRegistry.Endpoints
/-!
# Why an instance is available

`AVAILABLE` is a conclusion from the live boots, the leases, the endpoints, the
capabilities and the service, drawn when the instance was last classified. The
calls that write one of these classify no instance that depends on it, other than
the owner of an updated endpoint, so the conclusion holds on in the runs that take
no premise of it away.
-/
open Lib

namespace RuntimeRegistry

/-! An instance that holds a lease, and the end of the lease. -/
namespace Sample

def lease : LeaseDescriptor := { lease_id := ⟨9⟩, state := LeaseState.ACTIVE }

def leased : Registry := Registry.fresh.after [
  .adopt_worker ⟨1⟩, .register_service service env, .acquire_lease lease env,
  .register_instance { incarnation 5 1 with lease := ⟨9⟩ } env]

end Sample

/-- What an available instance needs of an endpoint it lists. -/
def Serving (rc : Enum Reachability) (h : Enum Health) : Prop :=
  rc = Reachability.REACHABLE ∧ h ≠ Health.UNHEALTHY ∧ h ≠ Health.UNAVAILABLE

namespace Registry

variable {r t : Registry} {op : Op} {id : ServiceInstanceId} {inst : ServiceInstance} {scan : List ServiceInstanceId}

/-! ## Classification -/

/-- Everything that `AVAILABLE` stands for. -/
structure Justified (r : Registry) (inst : ServiceInstance) : Prop where
  live : r.authority.is_boot_live inst.boot = true
  freshness : inst.freshness = Freshness.CURRENT
  readiness : inst.readiness = Readiness.READY
  lease : inst.lease.value = 0 ∨ ∃ lease, r.leases[inst.lease]? = some lease ∧ lease.state = LeaseState.ACTIVE
  endpoints : r.EndpointsAre Serving inst
  capabilities : ∀ svc, r.services[inst.service_id]? = some svc → ∀ req ∈ svc.required_capabilities,
    r.HasCapability inst req

theorem requirementsFound_iff : r.requirementsFound inst = true ↔
    ∀ svc, r.services[inst.service_id]? = some svc → ∀ req ∈ svc.required_capabilities, r.HasCapability inst req := by
  have hfound : ∀ req, r.capabilityFound inst req = true ↔ r.HasCapability inst req := by
    intro req
    rw [capabilityFound, List.any_eq_true, HasCapability]
    refine exists_congr fun cid => and_congr_right fun _ => ?_
    rcases r.capabilities[cid]? <;> simp [capability_current]
  unfold requirementsFound
  rcases r.services[inst.service_id]? <;> simp [hfound]

theorem aggregateReachabilityLoop_named (eps : Map .EndpointId EndpointDescriptor) (degraded : Bool)
    (eids : List EndpointId) : (aggregateReachabilityLoop eps degraded eids).Named := by
  rw [aggregateReachabilityLoop_eq]
  exact reported_named _ _

/-- Endpoints that aggregate to `REACHABLE` are reachable, each of them. -/
theorem aggregateReachabilityLoop_reachable {eps : Map .EndpointId EndpointDescriptor} {eids : List EndpointId}
    (degraded : Bool) (hnamed : ∀ eid ∈ eids, ∀ ep, eps[eid]? = some ep → ep.reachability.Named)
    (h : aggregateReachabilityLoop eps degraded eids = Reachability.REACHABLE) :
    degraded = false ∧ ∀ eid ∈ eids, ∃ ep, eps[eid]? = some ep ∧ ep.reachability = Reachability.REACHABLE := by
  have halive := aggregateReachabilityLoop_alive degraded hnamed (.inl h)
  rw [aggregateReachabilityLoop_eq, reported_reachable, Bool.or_eq_false_iff, List.any_eq_false] at h
  refine ⟨h.2.1, fun eid hmem => ?_⟩
  obtain ⟨ep, hep, hr⟩ := halive eid hmem
  refine ⟨ep, hep, hr.resolve_right fun hdegraded => h.2.2 eid hmem ?_⟩
  simp [degradedEndpoint, hep, hdegraded]

/-- The checks that an available instance has passed. -/
structure ClassifiedAvailable (r : Registry) (inst : ServiceInstance) : Prop where
  live : r.authority.is_boot_live inst.boot = true
  freshness : inst.freshness = Freshness.CURRENT
  lease : r.leaseActive inst.lease = true
  requirements : r.requirementsFound inst = true
  readiness : ¬ (inst.readiness = Readiness.DRAINING ∨ inst.readiness = Readiness.NOT_READY ∨
    inst.readiness = Readiness.REVALIDATION_REQUIRED ∨ inst.readiness = Readiness.UNKNOWN ∨
    inst.readiness = Readiness.PARTIALLY_READY)
  health : ¬ (inst.health = Health.UNHEALTHY ∨ inst.health = Health.UNAVAILABLE)
  reachability : ¬ (inst.reachability = Reachability.UNREACHABLE ∨
    inst.reachability = Reachability.REVALIDATION_REQUIRED ∨ inst.reachability = Reachability.UNKNOWN ∨
    inst.reachability = Reachability.DEGRADED)

theorem classify_available (h : r.classify inst = .AVAILABLE) : r.ClassifiedAvailable inst := by
  revert h
  apply classify_rule (P := fun l => l = .AVAILABLE → r.ClassifiedAvailable inst)
  case available =>
    intro hlive hfresh hunreach hreach hlease hreq hdrain hready hhealth hdegraded _
    exact ⟨hlive, hfresh, hlease, hreq, by tauto, hhealth, by tauto⟩
  all_goals
    intros
    contradiction

/-- An instance that is classified as available from named values is justified. -/
theorem reclassify_justified (hready : inst.readiness.Named)
    (hnamed : ∀ eid ∈ inst.endpoints, ∀ ep, r.endpoints[eid]? = some ep → ep.reachability.Named)
    (h : (r.reclassify_lifecycle inst).lifecycle = Lifecycle.AVAILABLE) : r.Justified (r.reclassify_lifecycle inst) := by
  have hc := classify_available (Enum.named.inj h)
  refine ⟨hc.live, hc.freshness, ?readiness, leaseActive_iff _ |>.1 hc.lease, ?endpoints, requirementsFound_iff.1 hc.requirements⟩
  case readiness =>
    obtain ⟨rd, hrd⟩ := hready
    have hnot := hc.readiness
    change inst.readiness = _
    rw [hrd] at hnot ⊢
    cases rd <;> simp_all
  case endpoints =>
    intro eid hmem
    have hmem : eid ∈ inst.endpoints := hmem
    have hagg : aggregate_reachability inst r.endpoints = aggregateReachabilityLoop r.endpoints false inst.endpoints :=
      if_neg (List.ne_nil_of_mem hmem)
    have hreachable : aggregateReachabilityLoop r.endpoints false inst.endpoints = Reachability.REACHABLE := by
      have hnot := hc.reachability
      obtain ⟨rc, hrc⟩ := aggregateReachabilityLoop_named r.endpoints false inst.endpoints
      simp only [hagg, hrc] at hnot
      rw [hrc]
      cases rc <;> simp_all
    obtain ⟨ep, hep, hr⟩ := (aggregateReachabilityLoop_reachable false hnamed hreachable).2 eid hmem
    have hhealth : ¬ (ep.health = Health.UNHEALTHY ∨ ep.health = Health.UNAVAILABLE) := fun hbad =>
      hc.health (.inl (aggregate_health_unhealthy hmem hep hbad))
    exact ⟨ep, hep, hr, not_or.1 hhealth⟩

/-! ## Every call -/

/-- The instance is stored as available. -/
def AvailableAt (r : Registry) (id : ServiceInstanceId) (inst : ServiceInstance) : Prop :=
  r.instances[id]? = some inst ∧ inst.lifecycle = Lifecycle.AVAILABLE

/-- The call takes no premise from an available instance that it does not classify,
and it classifies by named values. -/
structure KeepsJustified (r : Registry) (op : Op) : Prop where
  spares : Spares Serving r.AvailableAt r op
  leases : ∀ id inst, r.AvailableAt id inst → inst.lease.value ≠ 0 → r.EndsLease op inst.lease → op.Kills r inst.boot
  services : ∀ svc env k stored, op = .register_service svc env → r.Accepts env → services_.Stores r svc k stored →
    ∀ id inst, r.AvailableAt id inst → { r with services := r.services.insert k stored }.requirementsFound inst = true
  capabilities : ∀ cap env k stored, op = .register_capability cap env → r.Accepts env →
    capabilities_.Stores r cap k stored → ∀ id inst, r.AvailableAt id inst →
    { r with capabilities := r.capabilities.insert k stored }.requirementsFound inst = true
  named : r.ClassifiesNamed op
  readiness : ∀ inst, r.Classifies op inst → (∀ id rd env, op ≠ .update_readiness id rd env) → inst.readiness.Named
  value : ∀ id rd env, op = .update_readiness id rd env → rd.Named
  complete : ∀ data, op = .load_from data → Admitted data → Complete data

/-- Every available instance is justified. -/
def AllJustified (r : Registry) : Prop := ∀ id inst, r.AvailableAt id inst → r.Justified inst

/-- Every kind that the service requires is found after the call as before. -/
theorem KeepsJustified.requirements (hg : r.KeepsJustified op) (himage : op.class ≠ .image)
    (hepoch : op ≠ .begin_coordinator_epoch) (hD : r.AvailableAt id inst) (h : r.requirementsFound inst = true) :
    (r.exec scan op).2.requirementsFound inst = true := by
  rcases r.exec_services scan himage with hs | ⟨svc, env, k, stored, hop, ha, hst, hs⟩
  · rcases r.exec_capabilities scan himage hepoch with hc | ⟨cap, env, k, stored, hop, ha, hst, hc⟩
    · rwa [requirementsFound_congr hs hc]
    · have hfound := hg.capabilities cap env k stored hop ha hst id inst hD
      rwa [requirementsFound_congr (r := { r with capabilities := r.capabilities.insert k stored }) hs hc]
  · rcases r.exec_capabilities scan himage hepoch with hc | ⟨cap, env', k', stored', hop', _⟩
    · have hfound := hg.services svc env k stored hop ha hst id inst hD
      rwa [requirementsFound_congr (r := { r with services := r.services.insert k stored }) hs hc]
    · rw [hop] at hop'
      cases hop'

/-- An available instance that the call neither classifies nor kills stays justified. -/
theorem Justified.exec (h : r.Justified inst) (hg : r.KeepsJustified op) (himage : op.class ≠ .image)
    (hepoch : op ≠ .begin_coordinator_epoch) (hD : r.AvailableAt id inst) (hown : ¬ r.Refreshes op id)
    (hkill : ¬ op.Kills r inst.boot) : (r.exec scan op).2.Justified inst where
  live := exec_live h.live himage hepoch hkill
  freshness := h.freshness
  readiness := h.readiness
  lease := by
    by_cases hzero : inst.lease.value = 0
    · exact .inl hzero
    · have hactive : r.ActiveLease inst.lease := h.lease.resolve_left hzero
      exact .inr (hactive.exec scan himage hepoch fun hends => hkill (hg.leases id inst hD hzero hends))
  endpoints := h.endpoints.exec (fun _ _ hserving => ⟨rfl, hserving.2⟩) himage hepoch hg.spares hD hown
    fun hk => hkill hk.1
  capabilities := requirementsFound_iff.1 (hg.requirements himage hepoch hD (requirementsFound_iff.2 h.capabilities))

theorem revalidate_not_available (inst : ServiceInstance) : (revalidateInstance inst).lifecycle ≠ Lifecycle.AVAILABLE := by
  unfold revalidateInstance
  split_ifs with h hl
  · simp
  · exact fun ha => hl (.inl ha)
  · exact fun ha => h (.inl ha)

theorem restore_instances (header : Header) (r : Registry) :
    (restore header r).instances = r.instances.map fun _ => recoverInstance := by
  unfold restore
  dsimp only
  obtain ⟨_, _, _, _, h⟩ := rebuild_indexes_writes { r with
    authority := header.authority, next_boot := header.next_boot, next_id := header.next_id
    instances := r.instances.map fun _ => recoverInstance, endpoints := r.endpoints.map fun _ => recoverEndpoint
    capabilities := r.capabilities.map fun _ => recoverCapability, leases := r.leases.map fun _ => recoverLease }
  rw [h]

/-- Recovery leaves nothing available. -/
theorem allJustified_of_revalidated (h : t.instances = r.instances.map fun _ => revalidateInstance) : t.AllJustified := by
  rintro id inst ⟨hi, havailable⟩
  rw [h, Std.ExtTreeMap.getElem?_map, Option.map_eq_some_iff] at hi
  obtain ⟨old, _, rfl⟩ := hi
  exact absurd havailable (revalidate_not_available old)

theorem AllJustified.load_from (h : r.AllJustified) {data : List UInt8} (hc : Admitted data → Complete data) :
    (r.load_from data).2.AllJustified :=
  load_from_rule (P := AllJustified) (fun _ => h) (fun ha hnot => absurd (hc ha) hnot)
    fun _ _ => allJustified_of_revalidated (restore_instances _ _)

/-- An update writes the readiness or leaves it. -/
theorem updates_readiness {write : ServiceInstance → ServiceInstance} (h : op.updates = some (id, write))
    (inst : ServiceInstance) : (∃ rd env, op = .update_readiness id rd env ∧ (write inst).readiness = rd) ∨
      (∀ id rd env, op ≠ .update_readiness id rd env) ∧ (write inst).readiness = inst.readiness := by
  cases op <;> simp only [Op.updates, Option.some.injEq, Prod.mk.injEq, reduceCtorEq] at h
  case update_readiness id' rd env =>
    obtain ⟨rfl, rfl⟩ := h
    exact .inl ⟨rd, env, rfl, rfl⟩
  all_goals
    obtain ⟨_, rfl⟩ := h
    exact .inr ⟨fun _ _ _ hop => (by cases hop), rfl⟩

theorem AllJustified.step {e : Event} (h : r.AllJustified) (hs : Step r e t) (hg : r.KeepsJustified e.op) :
    t.AllJustified := by
  by_cases himage : e.op.class = .image
  · obtain ⟨data, hop⟩ := Op.eq_load_from himage
    have ht : t = (r.load_from data).2 := by rw [hs.state, hop]; rfl
    rw [ht]
    exact h.load_from (hg.complete data hop)
  by_cases hepoch : e.op = .begin_coordinator_epoch
  · rw [hs.state, hepoch]
    exact allJustified_of_revalidated (r := r) rfl
  rw [hs.state]
  rintro id inst ⟨hi, havailable⟩
  -- an instance that the call classifies is justified by the state it leaves
  have hclassified : ∀ inst' x, r.Classifies e.op inst' → x.endpoints = inst'.endpoints → x.readiness.Named →
      inst = (r.exec e.scan e.op).2.reclassify_lifecycle x → (r.exec e.scan e.op).2.Justified inst := by
    rintro inst' x hc hx hready rfl
    exact reclassify_justified hready (fun eid hmem => hg.named.exec hc eid (hx ▸ hmem)) havailable
  have hrefreshed : ∀ old, r.Refreshes e.op id → r.instances[id]? = some old →
      inst = (r.exec e.scan e.op).2.reclassify_lifecycle old → (r.exec e.scan e.op).2.Justified inst := by
    intro old hop hold heq
    have hc : r.Classifies e.op old := .inr ⟨id, hold, .inr hop⟩
    refine hclassified old old hc rfl (hg.readiness old hc fun id' rd env hop' => ?_) heq
    obtain ⟨_, _, _, _, hop, _⟩ := hop
    rw [hop] at hop'
    cases hop'
  cases r.exec_change e.scan e.op himage id with
  | kept ht =>
    have hD : r.AvailableAt id inst := ⟨ht.symm.trans hi, havailable⟩
    by_cases hown : r.Refreshes e.op id
    · exact hrefreshed inst hown hD.1 (Option.some.inj (hi.symm.trans (update_reachability_owner e.scan hown hD.1)))
    · refine (h id inst hD).exec hg himage hepoch hD hown fun hkill => ?_
      have hdead := Option.some.inj (hi.symm.trans (exec_dead hkill (h id inst hD).live hD.1))
      rw [hdead] at havailable
      cases havailable
  | updated write old hop _ hold ht =>
    have hc : r.Classifies e.op old := .inr ⟨id, hold, .inl ⟨write, hop⟩⟩
    refine hclassified old (write old) hc (updates_keeps hop old).1 ?_ (Option.some.inj (hi.symm.trans ht))
    rcases updates_readiness hop old with ⟨rd, env, hop', hrd⟩ | ⟨hop', hrd⟩
    · exact hrd ▸ hg.value id rd env hop'
    · exact hrd ▸ hg.readiness old hc hop'
  | refreshed old hop hold ht => exact hrefreshed old hop hold (Option.some.inj (hi.symm.trans ht))
  | stored inst' hop _ _ ht =>
    have hc : r.Classifies e.op inst' := .inl hop
    refine hclassified inst' { inst' with instance_id := id } hc rfl (hg.readiness inst' hc fun id' rd env hop' => ?_)
      (Option.some.inj (hi.symm.trans ht))
    rw [hop'] at hop
    cases hop
  | superseded old hold _ ht =>
    obtain rfl := Option.some.inj (hi.symm.trans ht)
    cases havailable
  | retired _ old _ _ hold ht =>
    obtain rfl := Option.some.inj (hi.symm.trans ht)
    cases havailable
  | dead old _ _ _ ht =>
    obtain rfl := Option.some.inj (hi.symm.trans ht)
    cases havailable
  | revalidated old hop _ _ => exact absurd hop hepoch

/-! ## Every run -/

/-- In every run that takes no premise from an available instance, `AVAILABLE` is
justified in every state. -/
theorem available_justified (h : Lib.Reachable (Guarded Step fun r e => r.KeepsJustified e.op) fresh r) :
    ∀ (id : ServiceInstanceId) (inst : ServiceInstance), r.instances[id]? = some inst →
      inst.lifecycle = Lifecycle.AVAILABLE → r.Justified inst := by
  have hall : r.AllJustified := by
    refine h.inv AllJustified (fun id inst hD => ?_) fun _ _ _ hs hst => hs.step hst.1 hst.2
    have hi := hD.1
    simp [fresh_instances] at hi
  exact fun id inst hi havailable => hall id inst ⟨hi, havailable⟩

/-- Where no instance is stored, only what the call classifies matters. -/
theorem KeepsJustified.of_empty (h : r.instances.isEmpty = true) (himage : op.class ≠ .image)
    (hinst : op.class ≠ .inst ∨ ∃ inst env, op = .register_instance inst env ∧ inst.readiness.Named ∧
      ∀ eid ∈ inst.endpoints, ∀ ep, r.endpoints[eid]? = some ep → ep.reachability.Named) : r.KeepsJustified op := by
  have hnone : ∀ id inst, ¬ r.AvailableAt id inst := by
    intro id inst hD
    have hi := hD.1
    rw [Std.ExtTreeMap.isEmpty_iff.1 h] at hi
    simp at hi
  have hnew : ∀ inst, r.Classifies op inst → ∃ env, op = .register_instance inst env ∧ inst.readiness.Named ∧
      ∀ eid ∈ inst.endpoints, ∀ ep, r.endpoints[eid]? = some ep → ep.reachability.Named := by
    intro inst hc
    rcases hinst with hinst | ⟨inst', env, rfl, hready, hnamed⟩
    · exact absurd hc.class hinst
    · rcases hc with hc | ⟨id, hi, _⟩
      · cases hc
        exact ⟨env, rfl, hready, hnamed⟩
      · rw [Std.ExtTreeMap.isEmpty_iff.1 h] at hi
        simp at hi
  have hother : ∀ id rd env, op ≠ .update_readiness id rd env := by
    rintro id rd env rfl
    rcases hinst with hinst | ⟨_, _, hop, _⟩
    · exact hinst rfl
    · cases hop
  have hreach : ∀ eid rc env, op ≠ .update_reachability eid rc env := by
    rintro id rd env rfl
    rcases hinst with hinst | ⟨_, _, hop, _⟩
    · exact hinst rfl
    · cases hop
  refine ⟨⟨fun _ _ _ _ _ _ _ => .inr fun id inst hD => absurd hD (hnone id inst),
    fun _ _ _ _ hop => absurd hop (hreach _ _ _), fun _ _ _ _ _ _ _ id inst hD => absurd hD (hnone id inst)⟩,
    fun id inst hD => absurd hD (hnone id inst), fun _ _ _ _ _ _ _ id inst hD => absurd hD (hnone id inst),
    fun _ _ _ _ _ _ _ id inst hD => absurd hD (hnone id inst), ⟨fun inst hc => ?_, fun _ _ _ hop => absurd hop (hreach _ _ _)⟩,
    fun inst hc _ => ?_, fun _ _ _ hop => absurd hop (hother _ _ _), ?_⟩
  · obtain ⟨_, _, _, hnamed⟩ := hnew inst hc
    exact hnamed
  · obtain ⟨_, _, hready, _⟩ := hnew inst hc
    exact hready
  · rintro data rfl
    exact absurd rfl himage

/-- The registrations of a leased instance. -/
theorem available_justified_leased : ∃ inst, Sample.leased.instances[(⟨5⟩ : ServiceInstanceId)]? = some inst ∧
    inst.lifecycle = Lifecycle.AVAILABLE ∧ Sample.leased.Justified inst := by
  have hmeets : Meets KeepsJustified fresh [.adopt_worker ⟨1⟩, .register_service Sample.service Sample.env,
      .acquire_lease Sample.lease Sample.env,
      .register_instance { Sample.incarnation 5 1 with lease := ⟨9⟩ } Sample.env] := by
    refine ⟨.of_empty (by decide +kernel) (by decide) (.inl (by decide)),
      .of_empty (by decide +kernel) (by decide) (.inl (by decide)),
      .of_empty (by decide +kernel) (by decide) (.inl (by decide)),
      .of_empty (by decide +kernel) (by decide) (.inr ⟨_, _, rfl, Enum.named_named _, fun _ hmem => ?_⟩), trivial⟩
    cases hmem
  obtain ⟨es, hrun⟩ := hmeets.run
  have havailable : ∃ inst ∈ Sample.leased.instances[(⟨5⟩ : ServiceInstanceId)]?,
      inst.lifecycle = Lifecycle.AVAILABLE := by decide +kernel
  obtain ⟨inst, hi, hl⟩ := havailable
  exact ⟨inst, hi, hl, available_justified ⟨es, hrun⟩ _ _ hi hl⟩

/-- The lease of an available instance expires. -/
theorem available_lease_expired :
    let s := Sample.leased.after [.expire_lease ⟨9⟩ Sample.env]
    s.Reachable ∧ ∃ inst, s.instances[(⟨5⟩ : ServiceInstanceId)]? = some inst ∧
      inst.lifecycle = Lifecycle.AVAILABLE ∧ ¬ s.Justified inst := by
  intro s
  have havailable : ∃ inst ∈ s.instances[(⟨5⟩ : ServiceInstanceId)]?,
      inst.lifecycle = Lifecycle.AVAILABLE ∧ inst.lease = ⟨9⟩ := by decide +kernel
  have hexpired : ∀ lease ∈ s.leases[(⟨9⟩ : LeaseId)]?, lease.state = LeaseState.EXPIRED := by decide +kernel
  obtain ⟨inst, hi, hl, hlease⟩ := havailable
  refine ⟨(Reachable.after (.refl _) _).after _, inst, hi, hl, fun h => ?_⟩
  rcases h.lease with hzero | ⟨lease, hstored, hactive⟩
  · rw [hlease] at hzero
    exact absurd hzero (by decide)
  · rw [hlease] at hstored
    rw [hexpired lease hstored] at hactive
    cases hactive

end Registry

end RuntimeRegistry
