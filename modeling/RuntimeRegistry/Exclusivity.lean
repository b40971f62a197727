import RuntimeRegistry.Lib.Holdings
import RuntimeRegistry.Atomicity
import RuntimeRegistry.LoadFailures
import RuntimeRegistry.Available
/-!
# Endpoints of usable instances

An endpoint names the instance it is bound to, and a registration takes an
endpoint from an owner that is over or stale. Nothing else asks who an endpoint is
bound to: an owner that is classified again becomes usable without its endpoints,
and a newer registration of an endpoint brings the binding it was called with.
-/
open Lib

namespace RuntimeRegistry

/-! The registered instance with the endpoint is replaced by one that takes the
endpoint, and an update of its health brings it back. -/
namespace Sample

def taken : Registry := served.after [.register_instance { incarnation 6 2 with endpoints := [⟨7⟩] } env]

def shared : Registry := taken.after [.update_health ⟨5⟩ Health.HEALTHY env]

end Sample

/-- `AVAILABLE` or `DEGRADED`. -/
def usable (l : Enum Lifecycle) : Bool := l = Lifecycle.AVAILABLE || l = Lifecycle.DEGRADED

/-- The instance that the endpoint is bound to; no endpoint is bound to id 0. -/
def EndpointDescriptor.holder (ep : EndpointDescriptor) : Option ServiceInstanceId :=
  if ep.service_instance.value = 0 then none else some ep.service_instance

namespace Registry

variable {r t : Registry} {op : Op} {env : AuthorityEnvelope} {scan : List ServiceInstanceId} {id : ServiceInstanceId}
  {inst : ServiceInstance} {eid : EndpointId}

/-- No two usable instances list one endpoint. -/
def Exclusive (r : Registry) : Prop :=
  ∀ (id id' : ServiceInstanceId) (inst inst' : ServiceInstance), r.instances[id]? = some inst →
    r.instances[id']? = some inst' → usable inst.lifecycle = true → usable inst'.lifecycle = true → id ≠ id' →
    ∀ eid ∈ inst.endpoints, eid ∉ inst'.endpoints

/-- The usable instances, their lists and the bindings. -/
def holdings (r : Registry) : Holdings ServiceInstanceId EndpointId where
  active id := ∃ inst, r.instances[id]? = some inst ∧ usable inst.lifecycle = true
  lists id eid := ∃ inst, r.instances[id]? = some inst ∧ eid ∈ inst.endpoints
  holder eid := r.endpoints[eid]?.bind (·.holder)

/-- Every usable instance has its endpoints. -/
def UsableHold (r : Registry) : Prop := r.holdings.Held

theorem UsableHold.exclusive (h : r.UsableHold) : r.Exclusive := by
  intro id id' inst inst' hi hi' hu hu' hne eid hmem hmem'
  exact hne (Holdings.Held.exclusive h ⟨inst, hi, hu⟩ ⟨inst', hi', hu'⟩ ⟨inst, hi, hmem⟩ ⟨inst', hi', hmem'⟩)

theorem revalidate_not_usable (inst : ServiceInstance) : usable (revalidateInstance inst).lifecycle = false := by
  unfold revalidateInstance
  split_ifs with h hl
  · simp [usable]
  · simp [usable, not_or.1 hl]
  · rw [not_or, not_or] at h
    simp [usable, h.1, h.2.1]

/-! ## Bindings -/

theorem holder_eq {ep : EndpointDescriptor} (h : r.endpoints[eid]? = some ep) : r.holdings.holder eid = ep.holder := by
  simp [holdings, h]

theorem holdings_insert_endpoint (r : Registry) (eid : EndpointId) (ep : EndpointDescriptor) :
    { r with endpoints := r.endpoints.insert eid ep }.holdings = r.holdings.rebind eid ep.holder := by
  have hholder : { r with endpoints := r.endpoints.insert eid ep }.holdings.holder =
      Function.update r.holdings.holder eid ep.holder := by
    funext e
    by_cases he : e = eid
    · subst he
      simp [holdings]
    · simp [holdings, he, Std.ExtTreeMap.getElem?_insert, Ne.symm he]
  unfold Holdings.rebind
  rw [← hholder]
  rfl

/-- Writing an endpoint and not its binding changes no binding. -/
theorem holdings_insert_bound {ep ep' : EndpointDescriptor} (h : r.endpoints[eid]? = some ep)
    (hsame : ep'.service_instance = ep.service_instance) :
    { r with endpoints := r.endpoints.insert eid ep' }.holdings = r.holdings := by
  have hbound : ep'.holder = r.holdings.holder eid := by
    rw [holder_eq h, EndpointDescriptor.holder, EndpointDescriptor.holder, hsame]
  rw [holdings_insert_endpoint, hbound, Holdings.rebind, Function.update_eq_self]

theorem holder_revalidateEndpoint (ep : EndpointDescriptor) : (revalidateEndpoint ep).holder = ep.holder := by
  unfold revalidateEndpoint
  split_ifs <;> rfl

/-- The instance has each endpoint that it lists. -/
def Has (r : Registry) (id : ServiceInstanceId) (inst : ServiceInstance) : Prop :=
  ∀ eid ∈ inst.endpoints, r.holdings.holder eid = some id

/-- An instance that is written has its endpoints, or is not usable. -/
theorem UsableHold.write (h : r.UsableHold) (he : t.endpoints = r.endpoints) (hid : t.instances[id]? = some inst)
    (hother : ∀ k, k ≠ id → t.instances[k]? = r.instances[k]?)
    (hhas : usable inst.lifecycle = true → r.Has id inst) : t.UsableHold := by
  refine Holdings.Held.write h (by simp only [holdings, he]) id ?_ ?_
  · intro k hk hactive
    simp only [holdings, hother k hk] at hactive ⊢
    exact ⟨hactive, fun _ hlists => hlists⟩
  · rintro ⟨x, hx, hu⟩ eid ⟨y, hy, hmem⟩
    obtain rfl : inst = x := Option.some.inj (hid.symm.trans hx)
    obtain rfl : inst = y := Option.some.inj (hid.symm.trans hy)
    exact hhas hu eid hmem

theorem UsableHold.insert (h : r.UsableHold) (he : t.endpoints = r.endpoints)
    (hi : t.instances = r.instances.insert id inst) (hhas : usable inst.lifecycle = true → r.Has id inst) :
    t.UsableHold := by
  have hid : t.instances[id]? = some inst := by simp [hi]
  refine h.write he hid (fun k hk => ?_) hhas
  rw [hi]
  exact (getElem?_insert_cases r.instances id k inst).elim (fun hsame => absurd hsame.1.symm hk) (·.2)

/-! ## Registration -/

/-- A claim takes an endpoint from no usable instance. -/
theorem UsableHold.claimEndpoint (h : r.UsableHold) (id : ServiceInstanceId) (eid : EndpointId) :
    (r.claimEndpoint id eid).2.UsableHold := by
  unfold Registry.claimEndpoint
  split
  · exact h
  rename_i ep hep
  split_ifs with hzero hother hactive
  · -- an endpoint that is bound to no instance
    unfold UsableHold
    rw [holdings_insert_endpoint]
    apply Holdings.Held.rebind h
    intro i _ _ hholder
    rw [holder_eq hep, EndpointDescriptor.holder, if_pos hzero] at hholder
    cases hholder
  · exact h
  · -- an owner that is over or stale is not usable
    unfold UsableHold
    rw [holdings_insert_endpoint]
    apply Holdings.Held.rebind h
    rintro i ⟨owner, hi, hu⟩ _ hholder
    rw [holder_eq hep, EndpointDescriptor.holder, if_neg hzero] at hholder
    obtain rfl := Option.some.inj hholder
    rw [Bool.not_eq_true', Bool.not_eq_false, inactive, hi] at hactive
    simp only [usable, Bool.or_eq_true, decide_eq_true_eq] at hu
    rcases hu with hu | hu <;> simp [hu, historical] at hactive
  · exact h

theorem UsableHold.claimEndpoints (h : r.UsableHold) (id : ServiceInstanceId) (eids : List EndpointId) :
    (r.claimEndpoints id eids).2.UsableHold := by
  induction eids generalizing r with
  | nil => exact h
  | cons eid eids ih =>
    have hone := h.claimEndpoint id eid
    unfold Registry.claimEndpoints
    rcases hc : r.claimEndpoint id eid with ⟨e | _, s⟩ <;> rw [hc] at hone
    · exact hone
    · exact ih hone

/-- What an instance claims, it has. -/
theorem claimEndpoints_holder (hid : id.value ≠ 0) {eids : List EndpointId}
    (h : r.claimEndpoints id eids = (.ok (), t)) : ∀ eid ∈ eids, t.holdings.holder eid = some id := by
  intro eid hmem
  have hclaimable := (claimEndpoints_ok_iff id eids r).1 ⟨t, h⟩
  have hbound := (claimEndpoints_bound id eids r).2 eid (by rwa [List.takeWhile_eq_self_iff.2 hclaimable])
  rw [h] at hbound
  obtain ⟨ep, hep, rfl⟩ := hbound
  rw [holder_eq hep, EndpointDescriptor.holder, if_neg hid]

theorem UsableHold.bindInstance (h : r.UsableHold) (copy : ServiceInstance)
    (hid : copy.endpoints ≠ [] → copy.instance_id.value ≠ 0) : (r.bindInstance copy).2.UsableHold := by
  have hclaims := h.claimEndpoints copy.instance_id copy.endpoints
  apply bindInstance_rule (P := fun o => o.2.UsableHold)
  case refused =>
    intro e t ht
    rwa [ht] at hclaims
  case stored =>
    intro t ht
    have hall : ∀ eid ∈ copy.endpoints, t.holdings.holder eid = some copy.instance_id :=
      fun eid hmem => claimEndpoints_holder (hid (List.ne_nil_of_mem hmem)) ht eid hmem
    rw [ht] at hclaims
    refine UsableHold.write hclaims (storeInstance_evidence t copy).endpoints ((storeInstance_instances t copy _).trans
      (if_pos rfl)) (fun k hk => ?_) fun _ => hall
    rw [storeInstance_instances, if_neg (Ne.symm hk)]

/-- A superseded instance is not usable. -/
theorem UsableHold.insert_superseded {old : ServiceInstance} (h : r.UsableHold) (he : t.endpoints = r.endpoints)
    (hi : t.instances = r.instances.insert id { old with lifecycle := Lifecycle.SUPERSEDED }) : t.UsableHold :=
  h.insert he hi fun hu => (by cases hu)

theorem UsableHold.register_instance (h : r.UsableHold) (scan : List ServiceInstanceId) (inst : ServiceInstance)
    (env : AuthorityEnvelope)
    (hid : inst.service_id ∈ r.services → inst.endpoints ≠ [] → (r.assignedId inst).value ≠ 0) :
    (r.register_instance scan inst env).2.UsableHold := by
  apply register_instance_state_rule (P := UsableHold)
  case kept => exact fun _ _ _ => h
  case first =>
    intro _ hservice _ _
    have hnext : { r with next_id := r.assignedNext inst }.UsableHold := h
    exact hnext.bindInstance _ (hid hservice)
  case superseded =>
    intro _ hservice id current _ _
    have hmarked : ({ r with next_id := r.assignedNext inst }.supersedeCurrent id current).UsableHold :=
      h.insert_superseded rfl rfl
    exact hmarked.bindInstance _ (hid hservice)

theorem UsableHold.supersede (h : r.UsableHold) (scan : List ServiceInstanceId) (old_id : ServiceInstanceId)
    (inst : ServiceInstance) (env : AuthorityEnvelope)
    (hid : inst.service_id ∈ r.services → inst.endpoints ≠ [] → (r.assignedId inst).value ≠ 0) :
    (r.supersede scan old_id inst env).2.UsableHold := by
  have hregister : ∀ old, ((r.markSuperseded old_id old).register_instance scan inst env).2.UsableHold := by
    intro old
    have hmarked : (r.markSuperseded old_id old).UsableHold := h.insert_superseded rfl rfl
    exact hmarked.register_instance scan inst env hid
  exact supersede_state_rule (P := UsableHold) h fun _ old _ _ => hregister old

/-! ## The other calls on instances -/

theorem UsableHold.updateInstance {write : ServiceInstance → ServiceInstance} {stale : RegistryError} (h : r.UsableHold)
    (hends : ∀ old, (write old).endpoints = old.endpoints)
    (hhas : ∀ old, r.Accepts env → generation_is_current_generation env old = true → r.instances[id]? = some old →
      usable (r.reclassify_lifecycle (write old)).lifecycle = true → r.Has id old) :
    (r.updateInstance id write stale env).2.UsableHold := by
  apply updateInstance_rule (P := fun o => o.2.UsableHold)
  case rejected => exact fun _ _ => h
  case unknown => exact fun _ _ _ => h
  case superseded => exact fun _ _ _ _ => h
  case updated =>
    intro ha old hold hgen
    refine h.insert rfl rfl fun hu => ?_
    have hlisted : ∀ eid ∈ (write old).endpoints, r.holdings.holder eid = some id := by
      rw [hends]
      exact hhas old ha hgen hold hu
    exact hlisted

theorem UsableHold.update_reachability {rc : Enum Reachability} (h : r.UsableHold)
    (hhas : ∀ ep old, r.UpdatesEndpoint env eid ep → ep.service_instance.value ≠ 0 →
      r.instances[ep.service_instance]? = some old → usable (reclassify_lifecycle
        { r with endpoints := r.endpoints.insert eid { ep with reachability := rc } } old).lifecycle = true →
      r.Has ep.service_instance old) : (r.update_reachability eid rc env).2.UsableHold := by
  apply update_reachability_rule (P := fun o => o.2.UsableHold)
  case rejected => exact fun _ _ => h
  case unknown => exact fun _ _ _ => h
  case stale => exact fun _ _ _ _ _ => h
  case updated =>
    intro ha ep hep hgen
    have hsame : { r with endpoints := r.endpoints.insert eid { ep with reachability := rc } }.holdings = r.holdings :=
      holdings_insert_bound hep rfl
    have hupdated : { r with endpoints := r.endpoints.insert eid { ep with reachability := rc } }.UsableHold := by
      unfold UsableHold
      rwa [hsame]
    apply reclassifyOwner_rule (P := fun u => u.commit_registry_generation.UsableHold)
    case kept => exact hupdated
    case reclassified =>
      intro h0 old hold
      refine hupdated.insert rfl rfl fun hu => ?_
      have howned := hhas ep old ⟨ha, hep, hgen⟩ h0 hold hu
      intro e hmem
      rw [hsame]
      exact howned e hmem

theorem UsableHold.deregister (h : r.UsableHold) : (r.deregister id env).2.UsableHold := by
  apply deregister_rule (P := fun o => o.2.UsableHold)
  case rejected => exact fun _ _ => h
  case unknown => exact fun _ _ => h
  case stale => exact fun _ _ _ _ _ => h
  case retired =>
    intro _ inst _ _
    exact h.insert rfl rfl fun hu => (by cases hu)

/-! ## Every call -/

/-- The call keeps the bindings of usable instances and makes none usable that has
lost an endpoint: a newer registration of an endpoint keeps the binding to the
usable instance that lists it, an instance that an update makes usable has its
endpoints, the id counter does not run into 0, and an image that breaks off has no
usable instance without its endpoints before the break. -/
structure KeepsHold (r : Registry) (op : Op) : Prop where
  assigned : ∀ inst, op.newInstance = some inst → inst.service_id ∈ r.services → inst.endpoints ≠ [] →
    (r.assignedId inst).value ≠ 0
  registered : ∀ ep env eid stored, op = .register_endpoint ep env → r.Accepts env → endpoints_.Stores r ep eid stored →
    ∀ id inst, r.instances[id]? = some inst → usable inst.lifecycle = true → eid ∈ inst.endpoints →
      stored.holder = some id
  updated : ∀ id write old, op.updates = some (id, write) → r.Authorizes op old → r.instances[id]? = some old →
    usable (r.reclassify_lifecycle (write old)).lifecycle = true → r.Has id old
  refreshed : ∀ eid rc env ep old, op = .update_reachability eid rc env → r.UpdatesEndpoint env eid ep →
    ep.service_instance.value ≠ 0 → r.instances[ep.service_instance]? = some old →
    usable (reclassify_lifecycle { r with endpoints := r.endpoints.insert eid { ep with reachability := rc } }
      old).lifecycle = true → r.Has ep.service_instance old
  broken : ∀ data, op = .load_from data → Admitted data → ¬ Complete data → (imageRecords data).2.UsableHold

theorem UsableHold.exec_inst (h : r.UsableHold) (hg : r.KeepsHold op) (hc : op.class = .inst) :
    (r.exec scan op).2.UsableHold := by
  have hupdates : ∀ {id : ServiceInstanceId} {write : ServiceInstance → ServiceInstance} {stale : RegistryError}
      {env : AuthorityEnvelope}, op.updates = some (id, write) → op.envelope = some env →
      (r.updateInstance id write stale env).2.UsableHold := by
    intro id write stale env hop henv
    apply h.updateInstance
    · exact fun old => (updates_keeps hop old).1
    · exact fun old ha hgen hold hu => hg.updated id write old hop ⟨env, henv, ha, hgen⟩ hold hu
  cases op <;> simp only [Op.class, reduceCtorEq] at hc
  case register_instance inst env => exact h.register_instance scan inst env (hg.assigned inst rfl)
  case supersede old_id inst env => exact h.supersede scan old_id inst env (hg.assigned inst rfl)
  case update_health id hl env => exact hupdates rfl rfl
  case update_readiness id rd env => exact hupdates rfl rfl
  case update_freshness id f env => exact hupdates rfl rfl
  case update_instance_reachability id rc env => exact hupdates rfl rfl
  case update_reachability eid rc env =>
    exact h.update_reachability fun ep old => hg.refreshed eid rc env ep old rfl
  case deregister id env => exact h.deregister

/-- Outside the calls on instances, a binding changes where a usable instance keeps it or dies. -/
theorem UsableHold.exec_other (h : r.UsableHold) (hkey : wellKeyed.Holds r) (hg : r.KeepsHold op)
    (hinst : op.class ≠ .inst) (himage : op.class ≠ .image) : (r.exec scan op).2.UsableHold := by
  have hnew : ∀ inst, op.newInstance ≠ some inst := fun _ hop => hinst (newInstance_call hop).1
  have hkept : ∀ (id : ServiceInstanceId) (x : ServiceInstance), (r.exec scan op).2.instances[id]? = some x → usable x.lifecycle = true →
      r.instances[id]? = some x := by
    intro id x hx hu
    cases r.exec_change scan op himage id with
    | kept ht => exact ht.symm.trans hx
    | updated write old hop => exact absurd (updates_class hop) hinst
    | refreshed old hop =>
      obtain ⟨_, _, _, _, rfl, _⟩ := hop
      exact absurd rfl hinst
    | stored inst hop => exact absurd hop (hnew inst)
    | superseded old _ _ ht =>
      obtain rfl := Option.some.inj (hx.symm.trans ht)
      cases hu
    | retired env old _ _ _ ht =>
      obtain rfl := Option.some.inj (hx.symm.trans ht)
      cases hu
    | dead old _ _ _ ht =>
      obtain rfl := Option.some.inj (hx.symm.trans ht)
      cases hu
    | revalidated old _ _ ht =>
      obtain rfl := Option.some.inj (hx.symm.trans ht)
      rw [revalidate_not_usable] at hu
      cases hu
  apply Holdings.Held.step h
  rintro id ⟨x, hx, hu⟩
  have hold := hkept id x hx hu
  refine .inl ⟨⟨x, hold, hu⟩, ?_⟩
  rintro eid ⟨y, hy, hmem⟩
  obtain rfl : x = y := Option.some.inj (hx.symm.trans hy)
  refine ⟨⟨x, hold, hmem⟩, fun hholder => ?_⟩
  cases r.exec_endpoint_change scan op himage eid with
  | kept ht => simpa only [holdings, ht] using hholder
  | registered ep env stored hop ha hs ht =>
    rw [holder_eq ht]
    exact hg.registered ep env eid stored hop ha hs id x hold hu hmem
  | claimed inst ep ep' hop => exact absurd hop (hnew inst)
  | updated rc env ep hop =>
    rw [hop] at hinst
    exact absurd rfl hinst
  | revalidated ep _ hep ht =>
    rw [holder_eq hep] at hholder
    rw [holder_eq ht, holder_revalidateEndpoint, hholder]
  | released boot ep hkill hlive hep hholds ht =>
    -- the endpoint is bound to this instance, so it is this instance that died
    obtain ⟨id', _, inst', hi', hboot, _, howner⟩ := hholds
    have hid : ep.service_instance = id := by
      rw [holder_eq hep, EndpointDescriptor.holder] at hholder
      split_ifs at hholder
      exact Option.some.inj hholder
    obtain rfl : id' = id := (hkey.instances id' inst' hi').symm.trans (howner.symm.trans hid)
    obtain rfl : x = inst' := Option.some.inj (hold.symm.trans hi')
    subst hboot
    rw [Option.some.inj (hx.symm.trans (exec_dead hkill hlive hold))] at hu
    cases hu

/-- Recovery leaves nothing usable. -/
theorem usableHold_of_revalidated (h : t.instances = r.instances.map fun _ => revalidateInstance) : t.UsableHold := by
  rintro id ⟨x, hx, hu⟩
  rw [h, Std.ExtTreeMap.getElem?_map, Option.map_eq_some_iff] at hx
  obtain ⟨old, _, rfl⟩ := hx
  rw [revalidate_not_usable] at hu
  cases hu

theorem UsableHold.step {e : Event} (h : r.UsableHold) (hkey : wellKeyed.Holds r) (hs : Step r e t)
    (hg : r.KeepsHold e.op) : t.UsableHold := by
  rw [hs.state]
  by_cases himage : e.op.class = .image
  · obtain ⟨data, hop⟩ := Op.eq_load_from himage
    rw [hop]
    apply load_from_rule (P := UsableHold)
    case refused => exact fun _ => h
    case broken =>
      intro ha hc
      have hread := hg.broken data hop ha hc
      generalize (imageRecords data).2 = s at hread ⊢
      exact hread
    case restored => exact fun _ _ => usableHold_of_revalidated (restore_instances _ _)
  by_cases hinst : e.op.class = .inst
  · exact h.exec_inst hg hinst
  · exact h.exec_other hkey hg hinst himage

/-- In every run whose calls keep the bindings of usable instances and make no
instance usable that has lost an endpoint, usable instances share no endpoint. -/
theorem endpoints_exclusive (h : Lib.Reachable (Guarded Step fun r e => r.KeepsHold e.op) fresh r) : r.Exclusive := by
  have hheld : wellKeyed.Holds r ∧ r.UsableHold := by
    apply h.inv fun r => wellKeyed.Holds r ∧ r.UsableHold
    · refine ⟨wellKeyed_reachable (.refl _), ?_⟩
      rintro id ⟨x, hx, _⟩
      simp [fresh_instances] at hx
    · rintro s e t ⟨hkey, hheld⟩ ⟨hs, hg⟩
      exact ⟨wellKeyed_step hkey hs, hheld.step hkey hs hg⟩
  exact hheld.2.exclusive

/-- Outside the calls on instances only the registration of an endpoint is conditional. -/
theorem KeepsHold.quiet (hinst : op.class ≠ .inst) (himage : op.class ≠ .image)
    (hendpoint : ∀ ep env, op = .register_endpoint ep env → r.instances.isEmpty = true) : r.KeepsHold op where
  assigned inst hop := absurd (newInstance_call hop).1 hinst
  registered ep env eid stored hop _ _ id inst hi := by
    rw [Std.ExtTreeMap.isEmpty_iff.1 (hendpoint ep env hop)] at hi
    simp at hi
  updated id write old hop := absurd (updates_class hop) hinst
  refreshed _ _ _ _ _ hop := by
    subst hop
    exact absurd rfl hinst
  broken _ hop := by
    subst hop
    exact absurd rfl himage

/-- A registration that names its id keeps the bindings. -/
theorem KeepsHold.register (hid : inst.instance_id.value ≠ 0) : r.KeepsHold (.register_instance inst env) where
  assigned inst' hop _ _ := by
    cases hop
    rwa [assignedId, if_neg hid]
  registered _ _ _ _ hop := by cases hop
  updated _ _ _ hop := by cases hop
  refreshed _ _ _ _ _ hop := by cases hop
  broken _ hop := by cases hop

/-- The endpoint of the replaced instance is that of the new one. -/
theorem endpoints_exclusive_taken : Sample.taken.Exclusive := by
  have hmeets : Meets KeepsHold fresh (Sample.serve ++
      [.register_instance { Sample.incarnation 6 2 with endpoints := [⟨7⟩] } Sample.env]) := by
    refine ⟨.quiet (by decide) (by decide) ?_, .quiet (by decide) (by decide) ?_, .quiet (by decide) (by decide) ?_,
      .register (by decide), .register (by decide), trivial⟩
    · exact fun _ _ hop => (by cases hop)
    · exact fun _ _ hop => (by cases hop)
    · exact fun _ _ _ => (by decide +kernel)
  obtain ⟨es, hrun⟩ := hmeets.run
  exact endpoints_exclusive ⟨es, hrun⟩

/-- The replaced instance is available again beside the one that took its endpoint. -/
theorem endpoint_shared : Sample.shared.Reachable ∧ ¬ Sample.shared.Exclusive := by
  refine ⟨((Reachable.after (.refl _) _).after _).after _, fun h => ?_⟩
  have hold : ∃ inst ∈ Sample.shared.instances[(⟨5⟩ : ServiceInstanceId)]?,
      usable inst.lifecycle = true ∧ (⟨7⟩ : EndpointId) ∈ inst.endpoints := by decide +kernel
  have hnew : ∃ inst ∈ Sample.shared.instances[(⟨6⟩ : ServiceInstanceId)]?,
      usable inst.lifecycle = true ∧ (⟨7⟩ : EndpointId) ∈ inst.endpoints := by decide +kernel
  obtain ⟨inst, hi, hu, hmem⟩ := hold
  obtain ⟨inst', hi', hu', hmem'⟩ := hnew
  exact h ⟨5⟩ ⟨6⟩ inst inst' hi hi' hu hu' (by decide) ⟨7⟩ hmem hmem'

end Registry

end RuntimeRegistry
