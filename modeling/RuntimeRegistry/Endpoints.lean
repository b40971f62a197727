import RuntimeRegistry.Aggregates
import RuntimeRegistry.Bookkeeping
import RuntimeRegistry.Evidence
import RuntimeRegistry.Queries
/-!
# The endpoints behind a cached reachability

An instance caches the reachability it was last classified with, and a query
trusts it. A call that leaves an endpoint worse classifies at most the instance
the endpoint is bound to, so an instance that lists the endpoint without owning
it, or any instance when the endpoint is registered again, goes on being found.
-/
open Lib

namespace RuntimeRegistry

/-! An instance with one endpoint, and the endpoint registered again. -/
namespace Sample

def endpoint : EndpointDescriptor := { endpoint_id := ⟨7⟩, generation := ⟨1⟩, reachability := Reachability.REACHABLE }

def listing : ServiceInstance := { incarnation 5 1 with endpoints := [⟨7⟩] }

def reachable : RegistryQuery := { required_reachability := Reachability.REACHABLE }

def serve : List Op := [
  .adopt_worker ⟨1⟩, .register_service service env, .register_endpoint endpoint env, .register_instance listing env]

def served : Registry := Registry.fresh.after serve

end Sample

/-- `REACHABLE` or `DEGRADED`: what a query for reachable instances accepts. -/
def Alive (rc : Enum Reachability) : Prop := rc = Reachability.REACHABLE ∨ rc = Reachability.DEGRADED

namespace Registry

variable {r t : Registry} {op : Op} {good : Enum Reachability → Enum Health → Prop} {id : ServiceInstanceId}
  {inst : ServiceInstance}

/-! ## Listed endpoints -/

/-- Every endpoint that the instance lists is stored and good. -/
def EndpointsAre (good : Enum Reachability → Enum Health → Prop) (r : Registry) (inst : ServiceInstance) : Prop :=
  ∀ eid ∈ inst.endpoints, ∃ ep, r.endpoints[eid]? = some ep ∧ good ep.reachability ep.health

/-- The call leaves no endpoint bad that an instance in `D` lists, unless it
classifies the instance again or ends its incarnation. -/
structure Spares (good : Enum Reachability → Enum Health → Prop) (D : ServiceInstanceId → ServiceInstance → Prop)
    (r : Registry) (op : Op) : Prop where
  registered : ∀ ep env eid stored, op = .register_endpoint ep env → r.Accepts env → endpoints_.Stores r ep eid stored →
    good stored.reachability stored.health ∨ ∀ id inst, D id inst → eid ∉ inst.endpoints
  updated : ∀ eid rc env ep, op = .update_reachability eid rc env → r.UpdatesEndpoint env eid ep →
    good rc ep.health ∨ ∀ id inst, D id inst → eid ∈ inst.endpoints → ep.service_instance = id ∧ id.value ≠ 0
  released : ∀ boot eid ep, op.Kills r boot → r.authority.is_boot_live boot = true → r.endpoints[eid]? = some ep →
    r.HoldsEndpoint boot r.instances.keys eid ep → ∀ id inst, D id inst → eid ∈ inst.endpoints → inst.boot = boot

/-- An update of an endpoint classifies the stored instance that the endpoint is bound to. -/
theorem update_reachability_owner (scan : List ServiceInstanceId) (h : r.Refreshes op id)
    (hi : r.instances[id]? = some inst) :
    (r.exec scan op).2.instances[id]? = some ((r.exec scan op).2.reclassify_lifecycle inst) := by
  obtain ⟨eid, rc, env, ep, rfl, ⟨ha, hep, hgen⟩, rfl, h0⟩ := h
  refine update_reachability_rule (P := fun o => o.2.instances[ep.service_instance]? = some (o.2.reclassify_lifecycle inst))
    ?_ ?_ ?_ ?_
  · exact fun _ hrej => absurd ha hrej
  · exact fun _ hnone => nomatch hnone.symm.trans hep
  · intro _ ep' hep' hstale
    obtain rfl : ep = ep' := Option.some.inj (hep.symm.trans hep')
    exact absurd hstale hgen
  · intro _ ep' hep' _
    obtain rfl : ep = ep' := Option.some.inj (hep.symm.trans hep')
    rw [reclassifyOwner, if_pos h0]
    simp only [hi]
    refine (Std.ExtTreeMap.getElem?_insert_self).trans (congrArg some ?_)
    exact (SameEvidence.reclassify ⟨rfl, rfl, rfl, rfl, rfl⟩ _).symm

/-- A live boot whose incarnation the call does not end stays live. -/
theorem exec_live {scan : List ServiceInstanceId} {b : WorkerBootId} (hlive : r.authority.is_boot_live b = true)
    (hclass : op.class ≠ .image) (hepoch : op ≠ .begin_coordinator_epoch) (hkill : ¬ op.Kills r b) :
    (r.exec scan op).2.authority.is_boot_live b = true := by
  by_cases hc : op.class = .incarnation
  · cases op <;> simp only [Op.class, reduceCtorEq] at hc
    case begin_coordinator_epoch => exact absurd rfl hepoch
    case mark_worker_died boot => exact (revoke_is_boot_live r boot b).2 ⟨hkill, hlive⟩
    case adopt_worker worker =>
      refine adopt_worker_rule (P := fun t => t.authority.is_boot_live b = true) (fun _ => ?_) fun prev hprev hne => ?_
      · simpa [enterBoot, RegistryAuthority.is_boot_live, is_boot_live_insert] using Or.inr hlive
      · have hb : b ≠ prev := fun hb => hkill ⟨hb ▸ hprev, hb ▸ hne⟩
        have hkept := (revoke_is_boot_live { r with next_boot := r.next_boot + 1 } prev b).2 ⟨hb, hlive⟩
        simp only [enterBoot, RegistryAuthority.is_boot_live, is_boot_live_insert, Bool.or_eq_true]
        exact .inr hkept
  · rw [RegistryAuthority.is_boot_live, (r.exec_incarnations scan op hc hclass).1.live_boots]
    exact hlive

/-- The instances of an incarnation that the call ends are marked dead. -/
theorem exec_dead {scan : List ServiceInstanceId} (hkill : op.Kills r inst.boot)
    (hlive : r.authority.is_boot_live inst.boot = true) (hi : r.instances[id]? = some inst) :
    (r.exec scan op).2.instances[id]? = some (deadInstance inst) := by
  cases op <;> try exact hkill.elim
  case mark_worker_died boot =>
    obtain rfl : inst.boot = boot := hkill
    simp only [exec, mark_worker_died, revoke_instances, hi, hlive, if_true, Option.map_some, markDead]
  case adopt_worker worker =>
    refine adopt_worker_rule (P := fun t => t.instances[id]? = some (deadInstance inst)) (fun hfirst => ?_)
      fun prev hprev _ => ?_
    · exact absurd (hfirst _ hkill.1) hkill.2
    · obtain rfl : prev = inst.boot := Option.some.inj (hprev.symm.trans hkill.1)
      refine (revoke_instances { r with next_boot := r.next_boot + 1 } inst.boot id).trans ?_
      simp only [hi, hlive, if_true, Option.map_some, markDead]

/-- A boot is not live after the call that ends its incarnation. -/
theorem kills_dead {scan : List ServiceInstanceId} {b : WorkerBootId} (h : op.Kills r b) :
    (r.exec scan op).2.authority.is_boot_live b = false := by
  rw [← Bool.not_eq_true]
  intro hlive
  cases op <;> try exact h.elim
  case mark_worker_died boot =>
    obtain rfl : b = boot := h
    exact ((revoke_is_boot_live r b b).1 hlive).1 rfl
  case adopt_worker worker =>
    revert hlive
    refine adopt_worker_rule (P := fun t => ¬ t.authority.is_boot_live b = true) (fun hfirst => ?_) fun prev hprev _ => ?_
    · exact absurd (hfirst b h.1) h.2
    · obtain rfl : prev = b := Option.some.inj (hprev.symm.trans h.1)
      intro hlive
      simp only [enterBoot, RegistryAuthority.is_boot_live, is_boot_live_insert, Bool.or_eq_true, decide_eq_true_eq] at hlive
      rcases hlive with heq | hlive
      · exact h.2 heq.symm
      · exact ((revoke_is_boot_live { r with next_boot := r.next_boot + 1 } prev prev).1 hlive).1 rfl

/-- Good endpoints stay good under a call that spares them. -/
theorem EndpointsAre.exec {D : ServiceInstanceId → ServiceInstance → Prop} {scan : List ServiceInstanceId}
    (h : r.EndpointsAre good inst) (hgood : ∀ rc h, good rc h → good Reachability.REACHABLE h)
    (hclass : op.class ≠ .image) (hepoch : op ≠ .begin_coordinator_epoch) (hs : Spares good D r op) (hD : D id inst)
    (hown : ¬ r.Refreshes op id) (hkill : ¬ (op.Kills r inst.boot ∧ r.authority.is_boot_live inst.boot = true)) :
    (r.exec scan op).2.EndpointsAre good inst := by
  intro eid hmem
  obtain ⟨ep, hep, hg⟩ := h eid hmem
  cases r.exec_endpoint_change scan op hclass eid with
  | kept ht => exact ⟨ep, ht.trans hep, hg⟩
  | registered ep' env stored hop hacc hst ht =>
    rcases hs.registered ep' env eid stored hop hacc hst with hg' | hnot
    · exact ⟨_, ht, hg'⟩
    · exact absurd hmem (hnot id inst hD)
  | claimed inst' ep' ep'' hop _ hold hc ht =>
    obtain rfl : ep = ep' := Option.some.inj (hep.symm.trans hold)
    refine ⟨ep'', ht, ?_⟩
    rcases hc with rfl | rfl
    · exact hg
    · exact hgood _ _ hg
  | updated rc env ep' hop hu ht =>
    obtain rfl : ep = ep' := Option.some.inj (hep.symm.trans hu.2.1)
    rcases hs.updated eid rc env ep hop hu with hg' | howned
    · exact ⟨_, ht, hg'⟩
    · exact absurd ⟨eid, rc, env, ep, hop, hu, howned id inst hD hmem⟩ hown
  | released boot ep' hk hlive hold hholds ht =>
    have hboot := hs.released boot eid ep' hk hlive hold hholds id inst hD hmem
    exact absurd ⟨hboot ▸ hk, hboot ▸ hlive⟩ hkill
  | revalidated ep' hop _ _ => exact absurd hop hepoch

/-! ## Classification -/

theorem reported_alive {o : Option Obstacle} {degraded : Bool} : Alive (reported o degraded) ↔ o = none := by
  rcases o with _ | _ | _ | _ <;> cases degraded <;> simp [reported, Alive]

theorem obstacle_none {eps : Map .EndpointId EndpointDescriptor} {eid : EndpointId}
    (hnamed : ∀ ep, eps[eid]? = some ep → ep.reachability.Named) (h : obstacle eps eid = none) :
    ∃ ep, eps[eid]? = some ep ∧ Alive ep.reachability := by
  unfold obstacle at h
  rcases hep : eps[eid]? with _ | ep
  · simp [hep] at h
  · obtain ⟨rc, hrc⟩ := hnamed ep hep
    refine ⟨ep, rfl, ?_⟩
    rw [Alive, hrc]
    cases rc <;> simp_all

/-- A list of endpoints that aggregates to a reachability a query accepts holds
live endpoints only, if none of them has a value outside the enumeration. -/
theorem aggregateReachabilityLoop_alive {eps : Map .EndpointId EndpointDescriptor} {eids : List EndpointId}
    (degraded : Bool) (hnamed : ∀ eid ∈ eids, ∀ ep, eps[eid]? = some ep → ep.reachability.Named)
    (h : Alive (aggregateReachabilityLoop eps degraded eids)) :
    ∀ eid ∈ eids, ∃ ep, eps[eid]? = some ep ∧ Alive ep.reachability := by
  rw [aggregateReachabilityLoop_eq, reported_alive, List.findSome?_eq_none_iff] at h
  intro eid hmem
  exact obstacle_none (hnamed eid hmem) (h eid hmem)

/-- What an instance is classified with as reachable, its endpoints are. -/
theorem reclassify_endpoints_alive
    (hnamed : ∀ eid ∈ inst.endpoints, ∀ ep, r.endpoints[eid]? = some ep → ep.reachability.Named)
    (h : Alive (r.reclassify_lifecycle inst).reachability) : r.EndpointsAre (fun rc _ => Alive rc) inst := by
  intro eid hmem
  have hagg : (r.reclassify_lifecycle inst).reachability = aggregateReachabilityLoop r.endpoints false inst.endpoints :=
    if_neg (List.ne_nil_of_mem hmem)
  rw [hagg] at h
  exact aggregateReachabilityLoop_alive false hnamed h eid hmem

/-- The call classifies the instance. -/
def Classifies (r : Registry) (op : Op) (inst : ServiceInstance) : Prop :=
  op.newInstance = some inst ∨
    ∃ id, r.instances[id]? = some inst ∧ ((∃ write, op.updates = some (id, write)) ∨ r.Refreshes op id)

theorem Classifies.class (h : r.Classifies op inst) : op.class = .inst := by
  rcases h with h | ⟨_, _, ⟨_, h⟩ | ⟨_, _, _, _, rfl, _⟩⟩
  · cases op <;> first | rfl | simp [Op.newInstance] at h
  · cases op <;> first | rfl | simp [Op.updates] at h
  · rfl

theorem Kills.class {b : WorkerBootId} (h : op.Kills r b) : op.class = .incarnation := by
  cases op <;> first | rfl | exact h.elim

/-- The four updates keep the endpoints, the boot and the service of an instance. -/
theorem updates_keeps {write : ServiceInstance → ServiceInstance} (h : op.updates = some (id, write))
    (inst : ServiceInstance) : (write inst).endpoints = inst.endpoints ∧ (write inst).boot = inst.boot ∧
      (write inst).service_id = inst.service_id := by
  cases op <;> simp only [Op.updates, Option.some.injEq, Prod.mk.injEq, reduceCtorEq] at h
  all_goals
    obtain ⟨_, rfl⟩ := h
    exact ⟨rfl, rfl, rfl⟩

/-- The call classifies by the enumerators of `Reachability` only. -/
structure ClassifiesNamed (r : Registry) (op : Op) : Prop where
  endpoints : ∀ inst, r.Classifies op inst → ∀ eid ∈ inst.endpoints, ∀ ep, r.endpoints[eid]? = some ep →
    ep.reachability.Named
  value : ∀ eid rc env, op = .update_reachability eid rc env → rc.Named

theorem ClassifiesNamed.exec {scan : List ServiceInstanceId} (hg : r.ClassifiesNamed op) (h : r.Classifies op inst) :
    ∀ eid ∈ inst.endpoints, ∀ ep, (r.exec scan op).2.endpoints[eid]? = some ep → ep.reachability.Named := by
  intro eid hmem ep hep
  have hclass : op.class = .inst := h.class
  cases r.exec_endpoint_change scan op (by rw [hclass]; decide) eid with
  | kept ht => exact hg.endpoints inst h eid hmem ep (ht.symm.trans hep)
  | claimed inst' ep' ep'' hop _ hold hc ht =>
    obtain rfl : ep'' = ep := Option.some.inj (ht.symm.trans hep)
    rcases hc with rfl | rfl
    · exact hg.endpoints inst h eid hmem ep' hold
    · exact Enum.named_named _
  | updated rc env ep' hop hu ht =>
    obtain rfl := Option.some.inj (ht.symm.trans hep)
    exact hg.value eid rc env hop
  | registered ep' env stored hop => rw [hop] at hclass; cases hclass
  | released boot ep' hk => rw [Kills.class hk] at hclass; cases hclass
  | revalidated ep' hop => rw [hop] at hclass; cases hclass

/-! ## Every call -/

/-- What a live instance caches as reachable has live endpoints. -/
def CachesAlive (r : Registry) : Prop :=
  ∀ (id : ServiceInstanceId) (inst : ServiceInstance), r.instances[id]? = some inst →
    r.authority.is_boot_live inst.boot = true → Alive inst.reachability → r.EndpointsAre (fun rc _ => Alive rc) inst

/-- The instance is found by what it caches, now or after the adoption. -/
def FoundByCache (r : Registry) (op : Op) (id : ServiceInstanceId) (inst : ServiceInstance) : Prop :=
  r.instances[id]? = some inst ∧ Alive inst.reachability ∧
    (r.authority.is_boot_live inst.boot = true ∨ op.adopts = true ∧ inst.boot = r.nextBoot)

/-- The call leaves no endpoint dead behind an instance that it does not classify,
revives no instance with a dead endpoint, classifies by named values, and reads an
image to its end if it reads any record of it. -/
structure KeepsAlive (r : Registry) (op : Op) : Prop where
  spares : Spares (fun rc _ => Alive rc) (r.FoundByCache op) r op
  revives : op.adopts = true → ∀ (id : ServiceInstanceId) (inst : ServiceInstance), r.instances[id]? = some inst →
    inst.boot = r.nextBoot → Alive inst.reachability → r.EndpointsAre (fun rc _ => Alive rc) inst
  named : r.ClassifiesNamed op
  complete : ∀ data, op = .load_from data → Admitted data → Complete data

/-- Without a live boot there is no cache to trust. -/
theorem cachesAlive_of_cleared (h : r.authority.live_boots = ∅) : r.CachesAlive := by
  intro id inst _ hlive
  simp [RegistryAuthority.is_boot_live, h] at hlive

/-- An instance that keeps what it caches keeps its endpoints, or is classified again. -/
theorem CachesAlive.carried {scan : List ServiceInstanceId} (h : r.CachesAlive) (hg : r.KeepsAlive op)
    (hclass : op.class ≠ .image) (hepoch : op ≠ .begin_coordinator_epoch) (hi : r.instances[id]? = some inst)
    (ha : Alive inst.reachability) (hlive : (r.exec scan op).2.authority.is_boot_live inst.boot = true)
    (hown : ¬ r.Refreshes op id) : (r.exec scan op).2.EndpointsAre (fun rc _ => Alive rc) inst := by
  have hnow := (r.exec_boots scan op hclass).2 inst.boot hlive
  have hare : r.EndpointsAre (fun rc _ => Alive rc) inst := by
    rcases hnow with hlive₀ | ⟨hadopts, hboot⟩
    · exact h id inst hi hlive₀ ha
    · exact hg.revives hadopts id inst hi hboot ha
  refine hare.exec (fun _ _ _ => .inl rfl) hclass hepoch hg.spares ⟨hi, ha, hnow⟩ hown fun hkill => ?_
  rw [kills_dead hkill.1] at hlive
  cases hlive

theorem CachesAlive.step {e : Event} (h : r.CachesAlive) (hs : Step r e t) (hg : r.KeepsAlive e.op) : t.CachesAlive := by
  by_cases hclass : e.op.class = .image
  · rcases hop : e.op <;> rw [hop] at hclass <;> simp only [Op.class, reduceCtorEq] at hclass
    rename_i data
    have ht : t = (r.load_from data).2 := by rw [hs.state, hop]; rfl
    rw [ht]
    refine load_from_rule (P := CachesAlive) (fun _ => h) (fun ha hc => absurd (hg.complete data hop ha) hc)
      fun _ _ => cachesAlive_of_cleared ?_
    rw [restore_authority]
    exact (header_incarnations _).1
  by_cases hepoch : e.op = .begin_coordinator_epoch
  · rw [hs.state, hepoch]
    exact cachesAlive_of_cleared rfl
  rw [hs.state]
  intro id inst hi hlive ha
  -- an instance that the call classifies is found by the endpoints of the state it leaves
  have hclassified : ∀ inst' x, r.Classifies e.op inst' → x.endpoints = inst'.endpoints →
      inst = (r.exec e.scan e.op).2.reclassify_lifecycle x →
      (r.exec e.scan e.op).2.EndpointsAre (fun rc _ => Alive rc) inst := by
    rintro inst' x hc hx rfl
    have hnamed : ∀ eid ∈ x.endpoints, ∀ ep, (r.exec e.scan e.op).2.endpoints[eid]? = some ep → ep.reachability.Named :=
      fun eid hmem => hg.named.exec hc eid (hx ▸ hmem)
    have hgood := reclassify_endpoints_alive hnamed ha
    exact hgood
  have hkept : ∀ old, r.instances[id]? = some old → inst.endpoints = old.endpoints → inst.boot = old.boot →
      inst.reachability = old.reachability → (r.exec e.scan e.op).2.EndpointsAre (fun rc _ => Alive rc) inst := by
    intro old hold he hb hr
    by_cases hown : r.Refreshes e.op id
    · have hre := update_reachability_owner e.scan hown hold
      exact hclassified old old (.inr ⟨id, hold, .inr hown⟩) rfl (Option.some.inj (hi.symm.trans hre))
    · have hcarried := h.carried hg hclass hepoch hold (hr ▸ ha) (hb ▸ hlive) hown
      rwa [EndpointsAre, ← he] at hcarried
  cases r.exec_change e.scan e.op hclass id with
  | kept ht => exact hkept inst (ht.symm.trans hi) rfl rfl rfl
  | updated write old hop _ hold ht =>
    exact hclassified old (write old) (.inr ⟨id, hold, .inl ⟨write, hop⟩⟩) (updates_keeps hop old).1
      (Option.some.inj (hi.symm.trans ht))
  | refreshed old hop hold ht =>
    exact hclassified old old (.inr ⟨id, hold, .inr hop⟩) rfl (Option.some.inj (hi.symm.trans ht))
  | stored inst' hop _ _ ht =>
    exact hclassified inst' { inst' with instance_id := id } (.inl hop) rfl (Option.some.inj (hi.symm.trans ht))
  | superseded old hold _ ht =>
    obtain rfl := Option.some.inj (hi.symm.trans ht)
    exact hkept old hold rfl rfl rfl
  | retired _ old _ _ hold ht =>
    obtain rfl := Option.some.inj (hi.symm.trans ht)
    exact hkept old hold rfl rfl rfl
  | dead old _ _ _ ht =>
    obtain rfl := Option.some.inj (hi.symm.trans ht)
    simp [Alive, deadInstance] at ha
  | revalidated _ hop => exact absurd hop hepoch

/-! ## Every run -/

/-- In every run that keeps the endpoints of what it caches alive, a query for
reachable instances ranks none with a dead endpoint. -/
theorem ranked_endpoints_alive (h : Lib.Reachable (Guarded Step fun r e => r.KeepsAlive e.op) fresh r)
    {scan : List ServiceInstanceId} (hscan : scan.Perm r.instances.keys) {q : RegistryQuery}
    (hq : q.required_reachability = Reachability.REACHABLE) :
    ∀ id ∈ (r.query scan q).rankedIds, ∃ inst, r.instances[id]? = some inst ∧
      r.EndpointsAre (fun rc _ => Alive rc) inst := by
  have hcaches : r.CachesAlive := h.inv CachesAlive (cachesAlive_of_cleared rfl) fun _ _ _ hs hst => hs.step hst.1 hst.2
  have hreach : r.Reachable := by
    obtain ⟨es, hr⟩ := h
    exact ⟨es, hr.unguarded⟩
  rw [forall_ranked hreach hscan]
  intro id inst svc hc he _
  refine hcaches id inst hc.stored he.live ?_
  have hmeets := he.reachability
  simpa [reachability_meets, hq, Alive] using hmeets

theorem fresh_instances : fresh.instances = ∅ := by
  obtain ⟨_, _, _, _, h⟩ := rebuild_indexes_writes
    { authority := { epoch := ⟨1⟩, registry_generation := ⟨1⟩, record_generation := ⟨1⟩ }, next_boot := 100, next_id := 1 }
  rw [fresh, h]

/-- A call that classifies nothing, loads nothing and ends no incarnation. -/
theorem KeepsAlive.quiet (hinst : op.class ≠ .inst) (himage : op.class ≠ .image) (hkills : ∀ b, ¬ op.Kills r b)
    (hendpoint : ∀ ep env, op = .register_endpoint ep env → Alive ep.reachability)
    (hadopts : op.adopts = true → r.instances = ∅) : r.KeepsAlive op where
  spares := by
    refine ⟨fun ep env _ stored hop _ hs => .inl ?_, ?_, fun b _ _ hk => absurd hk (hkills b)⟩
    · cases hs with
      | replaced => exact hendpoint ep env hop
      | inserted => exact hendpoint ep env hop
      | assigned withId hid =>
        cases hid
        exact hendpoint ep env hop
    · rintro _ _ _ _ rfl
      exact absurd rfl hinst
  revives hop id inst hi := by
    rw [hadopts hop] at hi
    simp at hi
  named := by
    refine ⟨fun _ hc => absurd hc.class hinst, ?_⟩
    rintro _ _ _ rfl
    exact absurd rfl hinst
  complete := by
    rintro _ rfl
    exact absurd rfl himage

/-- The registrations of the sample keep their endpoint alive. -/
theorem ranked_endpoints_alive_served :
    ⟨5⟩ ∈ (Sample.served.query Sample.served.instances.keys Sample.reachable).rankedIds ∧
      ∃ inst, Sample.served.instances[(⟨5⟩ : ServiceInstanceId)]? = some inst ∧
        Sample.served.EndpointsAre (fun rc _ => Alive rc) inst := by
  have hadopt : ∀ r : Registry, r.instances = ∅ → r.authority.current_boot[(⟨1⟩ : WorkerId)]? = none →
      r.KeepsAlive (.adopt_worker ⟨1⟩) := fun r hi hnone => by
    refine .quiet (by decide) (by decide) (fun _ h => ?_) (fun _ _ h => by cases h) fun _ => hi
    cases hnone.symm.trans h.1
  have hservice : ∀ r : Registry, r.KeepsAlive (.register_service Sample.service Sample.env) := fun r =>
    .quiet (by decide) (by decide) (fun _ h => h) (fun _ _ h => by cases h) fun h => by cases h
  have hendpoint : ∀ r : Registry, r.KeepsAlive (.register_endpoint Sample.endpoint Sample.env) := fun r =>
    .quiet (by decide) (by decide) (fun _ h => h) (by rintro _ _ ⟨⟩; exact .inl rfl) fun h => by cases h
  have hlisting : ∀ r : Registry, (∀ ep ∈ r.endpoints[(⟨7⟩ : EndpointId)]?, ep.reachability.Named) →
      r.KeepsAlive (.register_instance Sample.listing Sample.env) := fun r hnamed => by
    refine ⟨⟨fun _ _ _ _ h => (by cases h), fun _ _ _ _ h => (by cases h), fun _ _ _ h => h.elim⟩, fun h => (by cases h),
      ⟨?_, fun _ _ _ h => (by cases h)⟩, fun _ h => (by cases h)⟩
    rintro inst (h | ⟨_, _, ⟨_, h⟩ | ⟨_, _, _, _, h, _⟩⟩) eid hmem ep hep
    · cases h
      obtain rfl : eid = ⟨7⟩ := by simpa [Sample.listing] using hmem
      exact hnamed ep hep
    · cases h
    · cases h
  have hmeets : Meets KeepsAlive fresh Sample.serve :=
    ⟨hadopt _ fresh_instances (by decide +kernel), hservice _, hendpoint _, hlisting _ (by decide +kernel), trivial⟩
  obtain ⟨es, hrun⟩ := hmeets.run
  have hranked : ⟨5⟩ ∈ (Sample.served.query Sample.served.instances.keys Sample.reachable).rankedIds := by decide +kernel
  exact ⟨hranked, ranked_endpoints_alive ⟨es, hrun⟩ (.refl _) rfl _ hranked⟩

/-- The endpoint of a ranked instance is registered again as unreachable. -/
theorem ranked_endpoint_unreachable :
    let s := Sample.served.after [.register_endpoint
      { Sample.endpoint with generation := ⟨2⟩, reachability := Reachability.UNREACHABLE } Sample.env]
    s.Reachable ∧ Sample.reachable.required_reachability = Reachability.REACHABLE ∧
      ⟨5⟩ ∈ (s.query s.instances.keys Sample.reachable).rankedIds ∧
      ¬ ∃ inst, s.instances[(⟨5⟩ : ServiceInstanceId)]? = some inst ∧ s.EndpointsAre (fun rc _ => Alive rc) inst := by
  intro s
  have hlists : ∀ inst ∈ s.instances[(⟨5⟩ : ServiceInstanceId)]?, (⟨7⟩ : EndpointId) ∈ inst.endpoints := by decide +kernel
  have hdead : ∀ ep ∈ s.endpoints[(⟨7⟩ : EndpointId)]?, ep.reachability = Reachability.UNREACHABLE := by decide +kernel
  refine ⟨(Reachable.after (.refl _) _).after _, rfl, by decide +kernel, fun ⟨inst, hi, h⟩ => ?_⟩
  obtain ⟨ep, hep, halive⟩ := h ⟨7⟩ (hlists inst hi)
  rw [hdead ep hep] at halive
  rcases halive with h | h <;> cases h

end Registry

end RuntimeRegistry
