import RuntimeRegistry.Available
import RuntimeRegistry.Pessimism
/-!
# The verdict of a classification

The exits of `reclassify_lifecycle` amount to one condition, which shows no order
of the lists. No exit stops a value that no enumerator names: it passes for the
right one.
-/
open Lib

namespace RuntimeRegistry

/-- The value is the right one, or no enumerator. -/
def Passable {ε : Type} [Enumerators ε] (x : Enum ε) (e : ε) : Prop := x = e ∨ ¬ x.Named

theorem Passable.ne {ε : Type} [Enumerators ε] {x : Enum ε} {e e' : ε} (h : Passable x e) (he : e' ≠ e) :
    x ≠ (e' : Enum ε) := by
  rintro rfl
  rcases h with h | h
  · exact he (Enum.named.inj h)
  · exact h (Enum.named_named e')

open Ailment (afflict afflict_joins)

namespace Registry

variable {r : Registry} {id : ServiceInstanceId} {inst : ServiceInstance}

/-! ## The rules -/

/-- What availability asks of an instance other than its readiness and its
reachability. -/
structure Standing (r : Registry) (inst : ServiceInstance) : Prop where
  live : r.authority.is_boot_live inst.boot = true
  freshness : inst.freshness = Freshness.CURRENT
  lease : inst.lease.value = 0 ∨ ∃ lease, r.leases[inst.lease]? = some lease ∧ lease.state = LeaseState.ACTIVE
  capabilities : ∀ svc, r.services[inst.service_id]? = some svc → ∀ req ∈ svc.required_capabilities,
    r.HasCapability inst req
  health : ¬ (aggregate_health inst r.endpoints = Health.DEGRADED ∨
    aggregate_health inst r.endpoints = Health.UNHEALTHY ∨ aggregate_health inst r.endpoints = Health.UNAVAILABLE)

/-- The availability rules. -/
structure Qualifies (r : Registry) (inst : ServiceInstance) : Prop extends r.Standing inst where
  reachability : aggregate_reachability inst r.endpoints = Reachability.REACHABLE
  readiness : inst.readiness = Readiness.READY

theorem passable_ready {rd : Enum Readiness} : Passable rd .READY ↔ rd ≠ Readiness.DRAINING ∧
    ¬ (rd = Readiness.NOT_READY ∨ rd = Readiness.REVALIDATION_REQUIRED ∨ rd = Readiness.UNKNOWN) ∧
    rd ≠ Readiness.PARTIALLY_READY := by
  rcases rd with rd | ⟨b, hb⟩
  · cases rd <;> simp [Passable, Enum.named_named]
  · simp [Passable, Enum.Named]

theorem passable_reachable {rc : Enum Reachability} : Passable rc .REACHABLE ↔ rc ≠ Reachability.UNREACHABLE ∧
    ¬ (rc = Reachability.REVALIDATION_REQUIRED ∨ rc = Reachability.UNKNOWN) ∧ rc ≠ Reachability.DEGRADED := by
  rcases rc with rc | ⟨b, hb⟩
  · cases rc <;> simp [Passable, Enum.named_named]
  · simp [Passable, Enum.Named]

/-- The instance passes every exit before the last one. -/
structure PassesExits (r : Registry) (i : ServiceInstance) : Prop where
  live : r.authority.is_boot_live i.boot = true
  freshness : i.freshness = Freshness.CURRENT
  lease : r.leaseActive i.lease = true
  requirements : r.requirementsFound i = true
  health : ¬ (i.health = Health.DEGRADED ∨ i.health = Health.UNHEALTHY ∨ i.health = Health.UNAVAILABLE)
  readiness : Passable i.readiness .READY
  reachability : Passable i.reachability .REACHABLE

theorem classify_available_iff (i : ServiceInstance) : r.classify i = .AVAILABLE ↔ r.PassesExits i := by
  constructor
  · intro h
    revert h
    apply classify_rule (P := fun l => l = .AVAILABLE → r.PassesExits i)
    case available =>
      intro hlive hfresh hunreach hreach hlease hreq hdrain hready hhealth hdegraded _
      exact ⟨hlive, hfresh, hlease, hreq, by tauto, passable_ready.2 ⟨hdrain, hready, by tauto⟩,
        passable_reachable.2 ⟨hunreach, hreach, by tauto⟩⟩
    all_goals
      intros
      contradiction
  · rintro ⟨hlive, hfresh, hlease, hreq, hhealth, hready, hreach⟩
    obtain ⟨hdrain, hready, hpartial⟩ := passable_ready.1 hready
    obtain ⟨hunreach, hreach, hdegraded⟩ := passable_reachable.1 hreach
    rw [not_or, not_or] at hhealth
    simp [classify, hlive, hfresh, hlease, hreq, hhealth, hdrain, hready, hpartial, hunreach, hreach, hdegraded]

/-- The exits in one condition. -/
theorem available_iff : (r.reclassify_lifecycle inst).lifecycle = Lifecycle.AVAILABLE ↔ r.Standing inst ∧
    Passable inst.readiness .READY ∧ Passable (aggregate_reachability inst r.endpoints) .REACHABLE := by
  have hclass : (r.reclassify_lifecycle inst).lifecycle = Lifecycle.AVAILABLE ↔ r.PassesExits { inst with
      health := aggregate_health inst r.endpoints, reachability := aggregate_reachability inst r.endpoints } := by
    rw [← classify_available_iff]
    exact ⟨Enum.named.inj, fun h => congrArg Enum.named h⟩
  rw [hclass]
  constructor
  · rintro ⟨hlive, hfresh, hlease, hreq, hhealth, hready, hreach⟩
    exact ⟨⟨hlive, hfresh, (leaseActive_iff _).1 hlease, requirementsFound_iff.1 hreq, hhealth⟩, hready, hreach⟩
  · rintro ⟨hs, hready, hreach⟩
    exact ⟨hs.live, hs.freshness, (leaseActive_iff _).2 hs.lease, requirementsFound_iff.2 hs.capabilities, hs.health,
      hready, hreach⟩

/-! ## Order -/

theorem aggregate_reachability_named :
    (aggregate_reachability inst r.endpoints).Named ↔ (inst.endpoints = [] → inst.reachability.Named) := by
  by_cases hnil : inst.endpoints = []
  · simp [aggregate_reachability, hnil]
  · rw [aggregate_reachability, if_neg hnil]
    exact iff_of_true (aggregateReachabilityLoop_named _ _ _) fun h => absurd h hnil

/-- Whether the listed endpoints are all reachable does not show their order. -/
theorem passable_perm {eps : Map .EndpointId EndpointDescriptor} {l : List EndpointId} (hl : l.Perm inst.endpoints) :
    Passable (aggregate_reachability (withEndpoints inst l) eps) .REACHABLE ↔
      Passable (aggregate_reachability inst eps) .REACHABLE := by
  rcases withEndpoints_cases hl with hsame | ⟨hnil, hl'⟩
  · rw [hsame]
  · have hpass : ∀ o degraded, Passable (reported o degraded) .REACHABLE ↔ o = none ∧ degraded = false := by
      intro o degraded
      simp [Passable, reported_named, reported_reachable]
    rw [aggregate_reachability_eq hnil, aggregate_reachability_eq hl', hpass, hpass, hl.any_eq, List.findSome?_eq_none_iff,
      List.findSome?_eq_none_iff]
    simp only [hl.mem_iff]

/-- The registry with the kinds that a service requires in another order. -/
def withRequired (r : Registry) (id : ServiceId) (reqs : List (Enum CapabilityKind)) : Registry :=
  match r.services[id]? with
  | none => r
  | some svc => { r with services := r.services.insert id { svc with required_capabilities := reqs } }

/-- The instance with its lists in another order. -/
abbrev withLists (inst : ServiceInstance) (eids : List EndpointId) (cids : List CapabilityId) : ServiceInstance :=
  { inst with endpoints := eids, capabilities := cids }

theorem withRequired_fields (r : Registry) (id : ServiceId) (reqs : List (Enum CapabilityKind)) :
    (r.withRequired id reqs).authority = r.authority ∧ (r.withRequired id reqs).leases = r.leases ∧
      (r.withRequired id reqs).capabilities = r.capabilities ∧ (r.withRequired id reqs).endpoints = r.endpoints := by
  unfold withRequired
  split <;> exact ⟨rfl, rfl, rfl, rfl⟩

/-- The requirements on an instance, in another order. -/
structure Reordered (r : Registry) (inst : ServiceInstance) (eids : List EndpointId) (cids : List CapabilityId)
    (reqs : List (Enum CapabilityKind)) : Prop where
  endpoints : eids.Perm inst.endpoints
  capabilities : cids.Perm inst.capabilities
  required : ∀ svc, r.services[inst.service_id]? = some svc → reqs.Perm svc.required_capabilities

theorem Reordered.standing {eids : List EndpointId} {cids : List CapabilityId} {reqs : List (Enum CapabilityKind)}
    (h : r.Reordered inst eids cids reqs) :
    (r.withRequired inst.service_id reqs).Standing (withLists inst eids cids) ↔ r.Standing inst := by
  obtain ⟨hauthority, hleases, hcapabilities, hendpoints⟩ := r.withRequired_fields inst.service_id reqs
  have hhealth : aggregate_health (withLists inst eids cids) (r.withRequired inst.service_id reqs).endpoints =
      aggregate_health inst r.endpoints := by
    rw [hendpoints]
    exact aggregate_health_perm h.endpoints
  have hhas : ∀ req, (r.withRequired inst.service_id reqs).HasCapability (withLists inst eids cids) req ↔
      r.HasCapability inst req := by
    intro req
    simp only [HasCapability, hcapabilities, h.capabilities.mem_iff]
  have hrequired : (∀ svc, (r.withRequired inst.service_id reqs).services[inst.service_id]? = some svc →
      ∀ req ∈ svc.required_capabilities, r.HasCapability inst req) ↔
        ∀ svc, r.services[inst.service_id]? = some svc → ∀ req ∈ svc.required_capabilities, r.HasCapability inst req := by
    unfold withRequired
    rcases hs : r.services[inst.service_id]? with _ | svc
    · simp [hs]
    · simp [(h.required svc hs).mem_iff]
  constructor
  · rintro ⟨hlive, hfresh, hlease, hcap, hh⟩
    rw [hauthority] at hlive
    rw [hleases] at hlease
    rw [hhealth] at hh
    exact ⟨hlive, hfresh, hlease, hrequired.1 fun svc hs req hreq => (hhas req).1 (hcap svc hs req hreq), hh⟩
  · rintro ⟨hlive, hfresh, hlease, hcap, hh⟩
    refine ⟨by rwa [hauthority], hfresh, by rwa [hleases], ?_, by rwa [hhealth]⟩
    exact fun svc hs req hreq => (hhas req).2 (hrequired.2 hcap svc hs req hreq)

/-- No order of the lists shows in the verdict. -/
theorem Reordered.available {eids : List EndpointId} {cids : List CapabilityId} {reqs : List (Enum CapabilityKind)}
    (h : r.Reordered inst eids cids reqs) :
    ((r.withRequired inst.service_id reqs).reclassify_lifecycle (withLists inst eids cids)).lifecycle = Lifecycle.AVAILABLE ↔
      (r.reclassify_lifecycle inst).lifecycle = Lifecycle.AVAILABLE := by
  have hendpoints := (r.withRequired_fields inst.service_id reqs).2.2.2
  rw [available_iff, available_iff, h.standing, hendpoints]
  exact and_congr_right fun _ => and_congr_right fun _ => passable_perm h.endpoints

/-! ## Once more -/

/-- An aggregate that is aggregated again stays the same. -/
theorem reclassify_lifecycle_idem (r : Registry) (inst : ServiceInstance) :
    r.reclassify_lifecycle (r.reclassify_lifecycle inst) = r.reclassify_lifecycle inst := by
  have hhealth : aggregate_health (r.reclassify_lifecycle inst) r.endpoints = aggregate_health inst r.endpoints := by
    rw [aggregate_health_eq, aggregate_health_eq]
    change afflict (aggregate_health inst r.endpoints) (worst inst r.endpoints) = _
    rw [aggregate_health_eq, afflict_joins.again]
  have hreach : aggregate_reachability (r.reclassify_lifecycle inst) r.endpoints =
      aggregate_reachability inst r.endpoints := by
    by_cases hnil : inst.endpoints = []
    · have hagain : (r.reclassify_lifecycle inst).endpoints = [] := hnil
      rw [aggregate_reachability, if_pos hagain]
      rfl
    · have hagain : (r.reclassify_lifecycle inst).endpoints ≠ [] := hnil
      rw [aggregate_reachability_eq hagain, aggregate_reachability_eq hnil]
      rfl
  unfold reclassify_lifecycle at hhealth hreach ⊢
  dsimp only at hhealth hreach ⊢
  rw [hhealth, hreach]
  rfl

/-- `reclassify_lifecycle` on a stored instance. -/
def reclassifyStored (r : Registry) (id : ServiceInstanceId) : Registry :=
  match r.instances[id]? with
  | none => r
  | some inst => { r with instances := r.instances.insert id (r.reclassify_lifecycle inst) }

theorem reclassifyStored_idem (r : Registry) (id : ServiceInstanceId) :
    (r.reclassifyStored id).reclassifyStored id = r.reclassifyStored id := by
  rcases hi : r.instances[id]? with _ | inst
  · simp [reclassifyStored, hi]
  · have hstored : r.reclassifyStored id =
        { r with instances := r.instances.insert id (r.reclassify_lifecycle inst) } := by simp [reclassifyStored, hi]
    have hagain : SameEvidence r (r.reclassifyStored id) := by
      rw [hstored]
      exact ⟨rfl, rfl, rfl, rfl, rfl⟩
    have hi' : (r.reclassifyStored id).instances[id]? = some (r.reclassify_lifecycle inst) := by simp [hstored]
    rw [reclassifyStored, hi']
    dsimp only
    rw [hagain.reclassify, reclassify_lifecycle_idem, hstored]
    exact congrArg (fun m => { r with instances := m }) (insert_again _ _ _ _)

/-! ## The verdict -/

/-- What the verdict on a stored instance is meant to be: the availability rules, in
no order, once and for all, and a change of that instance alone. -/
structure VerdictSound (r : Registry) (id : ServiceInstanceId) (inst : ServiceInstance) : Prop where
  available : (r.reclassify_lifecycle inst).lifecycle = Lifecycle.AVAILABLE ↔ r.Qualifies inst
  unordered : ∀ eids cids reqs, r.Reordered inst eids cids reqs →
    (((r.withRequired inst.service_id reqs).reclassify_lifecycle (withLists inst eids cids)).lifecycle =
        Lifecycle.AVAILABLE ↔ (r.reclassify_lifecycle inst).lifecycle = Lifecycle.AVAILABLE)
  idempotent : (r.reclassifyStored id).reclassifyStored id = r.reclassifyStored id
  frame : ∃ h rc l, r.reclassifyStored id = { r with
    instances := r.instances.insert id { inst with health := h, reachability := rc, lifecycle := l } }

/-- The verdict on a stored instance is sound unless everything else that is asked
of it is met and its readiness, or the reachability that it reports without any
endpoint, is no enumerator. -/
theorem verdict_sound_iff (hi : r.instances[id]? = some inst) : r.VerdictSound id inst ↔
    (r.Standing inst → Passable inst.readiness .READY →
      Passable (aggregate_reachability inst r.endpoints) .REACHABLE →
        inst.readiness.Named ∧ (inst.endpoints = [] → inst.reachability.Named)) := by
  have hready : inst.readiness = Readiness.READY ↔ Passable inst.readiness .READY ∧ inst.readiness.Named :=
    ⟨fun h => ⟨.inl h, _, h⟩, fun ⟨h, hn⟩ => h.resolve_right (not_not.2 hn)⟩
  have hreach : aggregate_reachability inst r.endpoints = Reachability.REACHABLE ↔
      Passable (aggregate_reachability inst r.endpoints) .REACHABLE ∧ (inst.endpoints = [] → inst.reachability.Named) := by
    rw [← aggregate_reachability_named]
    exact ⟨fun h => ⟨.inl h, _, h⟩, fun ⟨h, hn⟩ => h.resolve_right (not_not.2 hn)⟩
  constructor
  · intro h hs hpready hpreach
    have hq := h.available.1 (available_iff.2 ⟨hs, hpready, hpreach⟩)
    exact ⟨(hready.1 hq.readiness).2, (hreach.1 hq.reachability).2⟩
  · intro hnamed
    refine ⟨?available, fun _ _ _ h => h.available, reclassifyStored_idem r id, ?frame⟩
    case available =>
      rw [available_iff]
      constructor
      · rintro ⟨hs, hpready, hpreach⟩
        obtain ⟨hn, hn'⟩ := hnamed hs hpready hpreach
        exact ⟨hs, hreach.2 ⟨hpreach, hn'⟩, hready.2 ⟨hpready, hn⟩⟩
      · intro hq
        exact ⟨hq.toStanding, (hready.1 hq.readiness).1, (hreach.1 hq.reachability).1⟩
    case frame =>
      refine ⟨aggregate_health inst r.endpoints, aggregate_reachability inst r.endpoints,
        (r.reclassify_lifecycle inst).lifecycle, ?_⟩
      rw [reclassifyStored, hi]
      rfl

theorem verdict_sound_sample : ∃ inst, Sample.registry.instances[(⟨5⟩ : ServiceInstanceId)]? = some inst ∧
    (Sample.registry.VerdictSound ⟨5⟩ inst ↔
      (Sample.registry.Standing inst → Passable inst.readiness .READY →
        Passable (aggregate_reachability inst Sample.registry.endpoints) .REACHABLE →
          inst.readiness.Named ∧ (inst.endpoints = [] → inst.reachability.Named))) := by
  have hstored : Sample.registry.instances[(⟨5⟩ : ServiceInstanceId)]?.isSome := by decide +kernel
  obtain ⟨inst, hi⟩ := Option.isSome_iff_exists.1 hstored
  exact ⟨inst, hi, verdict_sound_iff hi⟩

/-- The instance of the sample, updated to a readiness that is no enumerator. -/
def Sample.nameless : Registry := Sample.registry.after [.update_readiness ⟨5⟩ (.ofByte 99) Sample.env]

/-- It is available without being ready. -/
theorem available_unnamed : Sample.nameless.Reachable ∧
    ∃ inst, Sample.nameless.instances[(⟨5⟩ : ServiceInstanceId)]? = some inst ∧ ¬ Sample.nameless.VerdictSound ⟨5⟩ inst := by
  refine ⟨Reachable.after Sample.registry_reachable.reachable _, ?_⟩
  have hstored : ∃ inst ∈ Sample.nameless.instances[(⟨5⟩ : ServiceInstanceId)]?,
      (Sample.nameless.reclassify_lifecycle inst).lifecycle = Lifecycle.AVAILABLE ∧
        inst.readiness ≠ Readiness.READY := by
    decide +kernel
  obtain ⟨inst, hi, havailable, hready⟩ := hstored
  exact ⟨inst, hi, fun h => hready (h.available.1 havailable).readiness⟩

end Registry

end RuntimeRegistry
