import RuntimeRegistry.Writes
/-!
# The scope of a client

The ids that one client's calls write or name. Where the scopes of two clients are
disjoint and no record outside a scope names an id of it, what the one client writes
is nothing the other reads: a call does the same writes and gives the same reply in
any two states that agree outside the other scope.
-/
open Lib

namespace RuntimeRegistry

/-! ## Scopes -/

structure Scope where
  services : Set ServiceId
  instances : Set ServiceInstanceId
  endpoints : Set EndpointId
  capabilities : Set CapabilityId

namespace Scope

structure Disjoint (A B : Scope) : Prop where
  services : ∀ id ∈ A.services, id ∉ B.services
  instances : ∀ id ∈ A.instances, id ∉ B.instances
  endpoints : ∀ id ∈ A.endpoints, id ∉ B.endpoints
  capabilities : ∀ id ∈ A.capabilities, id ∉ B.capabilities

variable {A B : Scope}

theorem Disjoint.symm (h : A.Disjoint B) : B.Disjoint A :=
  ⟨fun _ hb ha => h.1 _ ha hb, fun _ hb ha => h.2 _ ha hb, fun _ hb ha => h.3 _ ha hb, fun _ hb ha => h.4 _ ha hb⟩

/-- The instance names no service, endpoint or capability of the scope. -/
structure Excludes (A : Scope) (inst : ServiceInstance) : Prop where
  service_id : inst.service_id ∉ A.services
  endpoints : ∀ eid ∈ inst.endpoints, eid ∉ A.endpoints
  capabilities : ∀ cid ∈ inst.capabilities, cid ∉ A.capabilities

/-- The endpoint is bound to no instance of the scope. -/
def ExcludesOwner (A : Scope) (ep : EndpointDescriptor) : Prop :=
  ep.service_instance.value ≠ 0 → ep.service_instance ∉ A.instances

end Scope

/-- A write of the client of scope `A` that names nothing of scope `B`. -/
def Write.Safe (A B : Scope) : Write → Prop
  | .set_service id _ => id ∈ A.services
  | .set_instance id inst => id ∈ A.instances ∧ B.Excludes inst
  | .set_endpoint id ep => id ∈ A.endpoints ∧ B.ExcludesOwner ep
  | .set_capability id _ => id ∈ A.capabilities
  | _ => True

theorem Write.Safe.not_meets {A B : Scope} {w v : Write} (hAB : A.Disjoint B) (hw : w.Safe A B) (hv : v.Safe B A) :
    ¬ w.Meets v := by
  intro h
  cases w <;> cases v <;> simp only [Write.Meets, Write.Safe] at h hw hv
  · exact hAB.services _ hw (h ▸ hv)
  · exact hAB.instances _ hw.1 (h ▸ hv.1)
  · exact hAB.endpoints _ hw.1 (h ▸ hv.1)
  · exact hAB.capabilities _ hw (h ▸ hv)

namespace Registry

variable {A B : Scope} {r s t u : Registry}

/-- No record stored outside the scope names an id of it. -/
structure Enclosed (A : Scope) (r : Registry) : Prop where
  instances : ∀ id inst, r.instances[id]? = some inst → id ∉ A.instances → A.Excludes inst
  endpoints : ∀ id ep, r.endpoints[id]? = some ep → id ∉ A.endpoints → A.ExcludesOwner ep

/-- The two agree on all that a call can read outside the scope. -/
structure AgreeOutside (B : Scope) (r s : Registry) : Prop where
  epoch : r.authority.epoch = s.authority.epoch
  live_boots : r.authority.live_boots = s.authority.live_boots
  tombstones : r.tombstones = s.tombstones
  leases : r.leases = s.leases
  services : ∀ id ∉ B.services, r.services[id]? = s.services[id]?
  instances : ∀ id ∉ B.instances, r.instances[id]? = s.instances[id]?
  endpoints : ∀ id ∉ B.endpoints, r.endpoints[id]? = s.endpoints[id]?
  capabilities : ∀ id ∉ B.capabilities, r.capabilities[id]? = s.capabilities[id]?

/-! ## What a write keeps -/

theorem AgreeOutside.symm (h : AgreeOutside B r s) : AgreeOutside B s r :=
  ⟨h.1.symm, h.2.symm, h.3.symm, h.4.symm, fun id hid => (h.5 id hid).symm, fun id hid => (h.6 id hid).symm,
    fun id hid => (h.7 id hid).symm, fun id hid => (h.8 id hid).symm⟩

theorem AgreeOutside.refl (B : Scope) (r : Registry) : AgreeOutside B r r :=
  ⟨rfl, rfl, rfl, rfl, fun _ _ => rfl, fun _ _ => rfl, fun _ _ => rfl, fun _ _ => rfl⟩

theorem AgreeOutside.trans (h₁ : AgreeOutside B r s) (h₂ : AgreeOutside B s t) : AgreeOutside B r t :=
  ⟨h₁.1.trans h₂.1, h₁.2.trans h₂.2, h₁.3.trans h₂.3, h₁.4.trans h₂.4, fun id hid => (h₁.5 id hid).trans (h₂.5 id hid),
    fun id hid => (h₁.6 id hid).trans (h₂.6 id hid), fun id hid => (h₁.7 id hid).trans (h₂.7 id hid),
    fun id hid => (h₁.8 id hid).trans (h₂.8 id hid)⟩

theorem AgreeOutside.reindex (B : Scope) (r : Registry) : AgreeOutside B r.rebuild_indexes r := by
  obtain ⟨_, _, _, _, h⟩ := rebuild_indexes_writes r
  rw [h]
  exact ⟨rfl, rfl, rfl, rfl, fun _ _ => rfl, fun _ _ => rfl, fun _ _ => rfl, fun _ _ => rfl⟩

theorem insert_congr {tag : IdTag} {ρ : Type} {m m' : Map tag ρ} {k : Id tag} (h : m[k]? = m'[k]?) (id : Id tag) (x : ρ) :
    (m.insert id x)[k]? = (m'.insert id x)[k]? := by
  simp only [Std.ExtTreeMap.getElem?_insert, h]

/-- The same write keeps two registries in agreement. -/
theorem AgreeOutside.run (h : AgreeOutside B r s) (w : Write) : AgreeOutside B (w.run r) (w.run s) := by
  cases w with
  | set_service id svc => exact ⟨h.1, h.2, h.3, h.4, fun k hk => insert_congr (h.5 k hk) id svc, h.6, h.7, h.8⟩
  | set_instance id inst => exact ⟨h.1, h.2, h.3, h.4, h.5, fun k hk => insert_congr (h.6 k hk) id inst, h.7, h.8⟩
  | set_endpoint id ep => exact ⟨h.1, h.2, h.3, h.4, h.5, h.6, fun k hk => insert_congr (h.7 k hk) id ep, h.8⟩
  | set_capability id cap => exact ⟨h.1, h.2, h.3, h.4, h.5, h.6, h.7, fun k hk => insert_congr (h.8 k hk) id cap⟩
  | reindex => exact (reindex B r).trans (h.trans (reindex B s).symm)
  | _ => exact ⟨h.1, h.2, h.3, h.4, h.5, h.6, h.7, h.8⟩

theorem AgreeOutside.written (h : AgreeOutside B r s) (ws : List Write) :
    AgreeOutside B (r.written ws) (s.written ws) := by
  induction ws generalizing r s with
  | nil => exact h
  | cons w ws ih => exact ih (h.run w)

theorem insert_other {tag : IdTag} {ρ : Type} (m : Map tag ρ) {X : Set (Id tag)} {id k : Id tag} (hid : id ∈ X)
    (hk : k ∉ X) (x : ρ) : m[k]? = (m.insert id x)[k]? := by
  rcases getElem?_insert_cases m id k x with ⟨rfl, _⟩ | ⟨_, h⟩
  · exact absurd hid hk
  · exact h.symm

/-- A write of the scope's client is not seen outside the scope. -/
theorem AgreeOutside.of_safe (r : Registry) {w : Write} (hw : w.Safe B A) : AgreeOutside B r (w.run r) := by
  have h := refl B r
  cases w with
  | set_service id svc => exact ⟨h.1, h.2, h.3, h.4, fun k hk => insert_other _ hw hk svc, h.6, h.7, h.8⟩
  | set_instance id inst => exact ⟨h.1, h.2, h.3, h.4, h.5, fun k hk => insert_other _ hw.1 hk inst, h.7, h.8⟩
  | set_endpoint id ep => exact ⟨h.1, h.2, h.3, h.4, h.5, h.6, fun k hk => insert_other _ hw.1 hk ep, h.8⟩
  | set_capability id cap => exact ⟨h.1, h.2, h.3, h.4, h.5, h.6, h.7, fun k hk => insert_other _ hw hk cap⟩
  | reindex => exact (reindex B r).symm
  | _ => exact ⟨h.1, h.2, h.3, h.4, h.5, h.6, h.7, h.8⟩

theorem AgreeOutside.of_written (r : Registry) {ws : List Write} (hws : ∀ w ∈ ws, w.Safe B A) :
    AgreeOutside B r (r.written ws) := by
  induction ws generalizing r with
  | nil => exact refl B r
  | cons w ws ih =>
    rw [List.forall_mem_cons] at hws
    exact (of_safe r hws.1).trans (ih _ hws.2)

theorem Alike.agree (h : r.Alike s) (B : Scope) : AgreeOutside B r s := by
  have heq := h.unordered
  exact ⟨congrArg (·.authority.epoch) heq, congrArg (·.authority.live_boots) heq, congrArg (·.tombstones) heq,
    congrArg (·.leases) heq, fun id _ => congrArg (·.services[id]?) heq, fun id _ => congrArg (·.instances[id]?) heq,
    fun id _ => congrArg (·.endpoints[id]?) heq, fun id _ => congrArg (·.capabilities[id]?) heq⟩

/-! ## Enclosed scopes stay enclosed -/

end Registry

/-- What the write stores outside the scope names no id of it. -/
def Write.Spares (B : Scope) : Write → Prop
  | .set_instance id inst => id ∉ B.instances → B.Excludes inst
  | .set_endpoint id ep => id ∉ B.endpoints → B.ExcludesOwner ep
  | _ => True

theorem Write.Safe.spares {A B : Scope} {w : Write} (hw : w.Safe A B) : w.Spares B := by
  cases w with
  | set_instance id inst => exact fun _ => hw.2
  | set_endpoint id ep => exact fun _ => hw.2
  | _ => trivial

theorem Write.Safe.spares_own {A B : Scope} {w : Write} (hw : w.Safe A B) : w.Spares A := by
  cases w with
  | set_instance id inst => exact fun hid => absurd hw.1 hid
  | set_endpoint id ep => exact fun hid => absurd hw.1 hid
  | _ => trivial

namespace Registry

variable {A B : Scope} {r s t u : Registry}

theorem Enclosed.congr (h : r.Enclosed B) (hi : s.instances = r.instances) (he : s.endpoints = r.endpoints) : s.Enclosed B :=
  ⟨fun id inst hs => h.1 id inst (hi ▸ hs), fun id ep hs => h.2 id ep (he ▸ hs)⟩

theorem Enclosed.run (h : r.Enclosed B) {w : Write} (hw : w.Spares B) : (w.run r).Enclosed B := by
  cases w with
  | set_instance id inst =>
    refine ⟨fun k x hx hk => ?_, h.2⟩
    rcases getElem?_insert_cases r.instances id k inst with ⟨rfl, hnew⟩ | ⟨_, hold⟩
    · obtain rfl := Option.some.inj (hnew.symm.trans hx)
      exact hw hk
    · exact h.1 k x (hold.symm.trans hx) hk
  | set_endpoint id ep =>
    refine ⟨h.1, fun k x hx hk => ?_⟩
    rcases getElem?_insert_cases r.endpoints id k ep with ⟨rfl, hnew⟩ | ⟨_, hold⟩
    · obtain rfl := Option.some.inj (hnew.symm.trans hx)
      exact hw hk
    · exact h.2 k x (hold.symm.trans hx) hk
  | reindex =>
    obtain ⟨_, _, _, _, hindexes⟩ := rebuild_indexes_writes r
    exact h.congr (by rw [Write.run, hindexes]) (by rw [Write.run, hindexes])
  | _ => exact h.congr rfl rfl

theorem Enclosed.written (h : r.Enclosed B) {ws : List Write} (hws : ∀ w ∈ ws, w.Spares B) : (r.written ws).Enclosed B := by
  induction ws generalizing r with
  | nil => exact h
  | cons w ws ih =>
    rw [List.forall_mem_cons] at hws
    exact ih (h.run hws.1) hws.2

/-! ## What a call reads -/

theorem AgreeOutside.validate_envelope (h : AgreeOutside B r s) (env : AuthorityEnvelope) :
    r.validate_envelope env = s.validate_envelope env := by
  rw [Registry.validate_envelope, Registry.validate_envelope, RegistryAuthority.is_boot_live, RegistryAuthority.is_boot_live, h.epoch,
    h.live_boots]

theorem AgreeOutside.aggregate_health (h : AgreeOutside B r s) {inst : ServiceInstance} (hinst : B.Excludes inst) :
    aggregate_health inst r.endpoints = aggregate_health inst s.endpoints :=
  List.foldl_ext _ _ _ fun _ eid heid => by rw [h.endpoints eid (hinst.endpoints eid heid)]

theorem AgreeOutside.reachabilityLoop (h : AgreeOutside B r s) {eids : List EndpointId}
    (heids : ∀ eid ∈ eids, eid ∉ B.endpoints) (degraded : Bool) :
    aggregateReachabilityLoop r.endpoints degraded eids = aggregateReachabilityLoop s.endpoints degraded eids := by
  induction eids generalizing degraded with
  | nil => rfl
  | cons eid eids ih =>
    rw [List.forall_mem_cons] at heids
    simp only [aggregateReachabilityLoop, h.endpoints eid heids.1, ih heids.2]

theorem AgreeOutside.requirementsFound (h : AgreeOutside B r s) {inst : ServiceInstance} (hinst : B.Excludes inst) :
    r.requirementsFound inst = s.requirementsFound inst := by
  have hcapability : r.capabilityFound inst = s.capabilityFound inst := by
    funext req
    rw [Bool.eq_iff_iff]
    simp only [capabilityFound, List.any_eq_true]
    refine exists_congr fun cid => and_congr_right fun hcid => ?_
    rw [h.capabilities cid (hinst.capabilities cid hcid)]
  rw [Registry.requirementsFound, Registry.requirementsFound, h.services _ hinst.service_id, hcapability]

/-- An instance that names nothing of the other scope is classified the same. -/
theorem AgreeOutside.reclassify (h : AgreeOutside B r s) {inst : ServiceInstance} (hinst : B.Excludes inst) :
    r.reclassify_lifecycle inst = s.reclassify_lifecycle inst := by
  have hhealth := h.aggregate_health hinst
  have hreach : aggregate_reachability inst r.endpoints = aggregate_reachability inst s.endpoints := by
    simp only [aggregate_reachability, h.reachabilityLoop hinst.endpoints]
  have haggregated : B.Excludes { inst with
      health := Registry.aggregate_health inst s.endpoints
      reachability := aggregate_reachability inst s.endpoints } := ⟨hinst.1, hinst.2, hinst.3⟩
  have hfound := h.requirementsFound haggregated
  have hlease : r.leaseActive inst.lease = s.leaseActive inst.lease := by
    rw [leaseActive, leaseActive, h.leases]
  simp only [reclassify_lifecycle, classify, hhealth, hreach, hfound, hlease, RegistryAuthority.is_boot_live, h.live_boots]

theorem excludes_reclassify (r : Registry) {inst : ServiceInstance} (hinst : B.Excludes inst) :
    B.Excludes (r.reclassify_lifecycle inst) := ⟨hinst.1, hinst.2, hinst.3⟩

end Registry
end RuntimeRegistry
