import RuntimeRegistry.Claiming
import RuntimeRegistry.Endpoints
import RuntimeRegistry.Succession
/-!
# Endpoints that change hands

A registration takes over the endpoints that it lists from instances that are over,
and writes them reachable and current as it does. No other call vouches for an
endpoint that was not verified, but for the ones that report on endpoints.
-/
open Lib

namespace RuntimeRegistry

/-- The call reports on endpoints, or loads them. -/
def Op.reportsEndpoint : Op → Bool
  | .register_endpoint _ _ | .update_reachability _ _ _ | .load_from _ => true
  | _ => false

/-- It is not known that the endpoint can be reached. -/
def EndpointDescriptor.Unverified (ep : EndpointDescriptor) : Prop :=
  ep.reachability = Reachability.UNKNOWN ∨ ep.reachability = Reachability.UNREACHABLE ∨
    ep.reachability = Reachability.REVALIDATION_REQUIRED

instance (ep : EndpointDescriptor) : Decidable ep.Unverified := inferInstanceAs (Decidable (_ ∨ _ ∨ _))

theorem EndpointDescriptor.Unverified.ne {ep : EndpointDescriptor} (h : ep.Unverified) :
    ep.reachability ≠ Reachability.REACHABLE := by
  intro hr
  rcases h with h | h | h <;> rw [hr] at h <;> cases h

namespace Registry

variable {r s t : Registry} {env : AuthorityEnvelope} {scan : List ServiceInstanceId} {inst : ServiceInstance} {op : Op}

/-- No endpoint becomes reachable that was not verified, and none current that was
not. -/
structure InventsNothing (r t : Registry) : Prop where
  reachability : ∀ (eid : EndpointId) (ep ep' : EndpointDescriptor), r.endpoints[eid]? = some ep →
    t.endpoints[eid]? = some ep' → ep.Unverified → ep'.reachability ≠ Reachability.REACHABLE
  freshness : ∀ (eid : EndpointId) (ep ep' : EndpointDescriptor), r.endpoints[eid]? = some ep →
    t.endpoints[eid]? = some ep' → ep.freshness ≠ Freshness.CURRENT → ep'.freshness ≠ Freshness.CURRENT

/-- The endpoint vouches for no more than before. -/
def VouchesLess (ep ep' : EndpointDescriptor) : Prop :=
  (ep.Unverified → ep'.reachability ≠ Reachability.REACHABLE) ∧
    (ep.freshness ≠ Freshness.CURRENT → ep'.freshness ≠ Freshness.CURRENT)

theorem inventsNothing_iff : r.InventsNothing t ↔
    ∀ (eid : EndpointId) (ep ep' : EndpointDescriptor), r.endpoints[eid]? = some ep → t.endpoints[eid]? = some ep' →
      VouchesLess ep ep' :=
  ⟨fun h eid ep ep' hep hep' => ⟨h.reachability eid ep ep' hep hep', h.freshness eid ep ep' hep hep'⟩,
    fun h => ⟨fun eid ep ep' hep hep' => (h eid ep ep' hep hep').1, fun eid ep ep' hep hep' => (h eid ep ep' hep hep').2⟩⟩

theorem VouchesLess.refl (ep : EndpointDescriptor) : VouchesLess ep ep := ⟨fun h => h.ne, fun h => h⟩

theorem VouchesLess.released (ep : EndpointDescriptor) : VouchesLess ep (releasedEndpoint ep) :=
  ⟨fun _ => nofun, fun h => h⟩

theorem VouchesLess.revalidated (ep : EndpointDescriptor) : VouchesLess ep (revalidateEndpoint ep) := by
  unfold revalidateEndpoint
  split_ifs
  · exact ⟨fun _ => nofun, fun _ => nofun⟩
  · exact ⟨fun _ => nofun, fun h => h⟩
  · exact .refl ep

/-! ## The loop over the endpoints -/

/-- The endpoint once the instance has claimed it. -/
def claimedBy (id : ServiceInstanceId) (ep : EndpointDescriptor) : EndpointDescriptor :=
  if ep.service_instance.value = 0 then { ep with service_instance := id }
  else if ep.service_instance ≠ id then
    { ep with service_instance := id, reachability := Reachability.REACHABLE, freshness := Freshness.CURRENT }
  else ep

/-- The endpoint is another instance's. -/
def OwnedElsewhere (id : ServiceInstanceId) (ep : EndpointDescriptor) : Prop :=
  ep.service_instance.value ≠ 0 ∧ ep.service_instance ≠ id

theorem claimedBy_claimedBy (id : ServiceInstanceId) (ep : EndpointDescriptor) :
    claimedBy id (claimedBy id ep) = claimedBy id ep := by
  unfold claimedBy
  split_ifs <;> simp_all

theorem claimedBy_vouchesLess_iff (id : ServiceInstanceId) (ep : EndpointDescriptor) :
    VouchesLess ep (claimedBy id ep) ↔ (OwnedElsewhere id ep → ¬ ep.Unverified ∧ ep.freshness = Freshness.CURRENT) := by
  unfold claimedBy OwnedElsewhere
  split_ifs with hfree hother
  · exact iff_of_true (.refl ep) fun h => absurd hfree h.1
  · simp [VouchesLess, hfree, hother]
  · exact iff_of_true (.refl ep) fun h => absurd h.2 hother

theorem claimedEndpoint_getElem? (id : ServiceInstanceId) (eps : Map .EndpointId EndpointDescriptor) (eid k : EndpointId) :
    (claimedEndpoint id eps eid)[k]? = if k = eid then eps[k]?.map (claimedBy id) else eps[k]? := by
  unfold claimedEndpoint
  by_cases hk : k = eid
  · subst hk
    rw [if_pos rfl]
    rcases hep : eps[k]? with _ | ep
    · exact hep
    · dsimp only [Option.map_some, claimedBy]
      split_ifs
      · exact Std.ExtTreeMap.getElem?_insert_self
      · exact Std.ExtTreeMap.getElem?_insert_self
      · exact hep
  · have hother : ∀ ep, (eps.insert eid ep)[k]? = eps[k]? := fun ep =>
      (getElem?_insert_cases eps eid k ep).elim (fun h => absurd h.1.symm hk) fun h => h.2
    rw [if_neg hk]
    rcases eps[eid]? with _ | ep
    · rfl
    · dsimp only
      split_ifs
      · exact hother _
      · exact hother _
      · rfl

theorem claimed_getElem? (id : ServiceInstanceId) (eids : List EndpointId) (r : Registry) (k : EndpointId) :
    (r.claimed id eids).endpoints[k]? = if k ∈ eids then r.endpoints[k]?.map (claimedBy id) else r.endpoints[k]? := by
  unfold claimed
  generalize r.endpoints = eps
  induction eids generalizing eps with
  | nil => simp
  | cons eid eids ih =>
    dsimp only [List.foldl_cons] at ih ⊢
    rw [ih, claimedEndpoint_getElem?]
    by_cases hk : k = eid
    · by_cases hmem : k ∈ eids <;> simp_all [Function.comp_def, claimedBy_claimedBy]
    · simp [hk]

/-- The loop claims the endpoints up to the first that it may not claim. -/
theorem claimEndpoints_taken (id : ServiceInstanceId) (eids : List EndpointId) (r : Registry) :
    (r.claimEndpoints id eids).2.endpoints = (r.claimed id (eids.takeWhile (r.claimable id))).endpoints := by
  induction eids generalizing r with
  | nil => rfl
  | cons eid eids ih =>
    rw [claimEndpoints, List.takeWhile_cons]
    rcases r.claimEndpoint_cases id eid with ⟨ep, hc, hep, h⟩ | ⟨hc, _, h⟩ | ⟨e, u, hc, hsame, h⟩
    · have hone := claimEndpoint_ok h
      rw [h, Outcome.andThen_ok, ih, funext (claimable_bind hc hep), if_pos hc, hone]
      rfl
    · have hone := claimEndpoint_ok h
      rw [h, Outcome.andThen_ok, ih, if_pos hc]
      change _ = (Registry.claimed { r with endpoints := claimedEndpoint id r.endpoints eid } id _).endpoints
      rw [← hone]
    · rw [h, Outcome.andThen_error, if_neg (by simp [hc])]
      exact hsame.endpoints

/-! ## Registrations that reach the loop -/

theorem bindInstance_endpoints_eq (r : Registry) (copy : ServiceInstance) :
    (r.bindInstance copy).2.endpoints = (r.claimEndpoints copy.instance_id copy.endpoints).2.endpoints := by
  refine bindInstance_rule (P := fun o => o.2.endpoints = _) ?_ ?_
  · intro e t ht
    rw [ht]
  · intro t ht
    rw [ht]
    exact (storeInstance_evidence t copy).endpoints

/-- Any other registration leaves the endpoints alone. -/
theorem register_instance_unopened (h : ¬ (r.Accepts env ∧ r.Opens scan inst)) :
    (r.register_instance scan inst env).2.endpoints = r.endpoints := by
  apply register_instance_state_rule (P := fun t => t.endpoints = _)
  case kept => exact fun _ _ _ => rfl
  case superseded =>
    intro ha hs id current hc hlt
    exact absurd ⟨ha, hs, by rw [hc]; exact hlt⟩ h
  case first =>
    intro ha hs hc hcov
    exact absurd ⟨ha, hs, by rw [hc]; exact hcov⟩ h

/-- The call registers the instance, and the registration reaches the loop in the
state that it is checked in. -/
structure Claims (r : Registry) (scan : List ServiceInstanceId) (op : Op) (inst : ServiceInstance) : Prop where
  call : op.newInstance = some inst
  accepted : ∃ env, op.envelope = some env ∧ r.Accepts env
  stored : ∀ old_id env, op = .supersede old_id inst env → old_id ∈ r.instances
  opens : (op.checkedIn r).Opens scan inst

/-- The endpoints that the call claims. -/
def taken (r : Registry) (scan : List ServiceInstanceId) (op : Op) (inst : ServiceInstance) : List EndpointId :=
  inst.endpoints.takeWhile (((op.checkedIn r).superseding scan inst).claimable (r.assignedId inst))

/-- A call that claims endpoints leaves them claimed, and every other endpoint alone. -/
theorem exec_claims (h : r.Claims scan op inst) (k : EndpointId) : (r.exec scan op).2.endpoints[k]? =
    if k ∈ r.taken scan op inst then r.endpoints[k]?.map (claimedBy (r.assignedId inst)) else r.endpoints[k]? := by
  obtain ⟨hnew, ⟨env, henv, ha⟩, hstored, hopens⟩ := h
  have hloop : ∀ s : Registry, s.endpoints = r.endpoints → s.assignedId inst = r.assignedId inst → s.Accepts env →
      s.Opens scan inst → (s.register_instance scan inst env).2.endpoints[k]? =
        if k ∈ inst.endpoints.takeWhile ((s.superseding scan inst).claimable (r.assignedId inst)) then
          r.endpoints[k]?.map (claimedBy (r.assignedId inst)) else r.endpoints[k]? := by
    intro s hendpoints hid ha hopens
    have hsame := (s.superseding_evidence scan inst).endpoints
    rw [register_instance_opened ha hopens, bindInstance_endpoints_eq, claimEndpoints_taken, claimed_getElem?, hsame, hendpoints, hid]
  cases op <;> simp only [Op.newInstance, reduceCtorEq, Option.some.injEq] at hnew
  case register_instance inst' env' =>
    subst hnew
    cases henv
    simp only [exec, Outcome.map_snd]
    exact hloop r rfl rfl ha hopens
  case supersede old_id inst' env' =>
    subst hnew
    cases henv
    obtain ⟨old, hold⟩ := Option.isSome_iff_exists.1
      (Std.ExtTreeMap.mem_iff_isSome_getElem?.1 (hstored old_id env rfl))
    simp only [Op.checkedIn, hold] at hopens
    simp only [exec, Outcome.map_snd, taken, Op.checkedIn, hold]
    rw [supersede_marked ha hold]
    exact hloop _ rfl rfl ha hopens

/-- A registration that does not get so far leaves all of them alone. -/
theorem exec_unclaimed (hnew : op.newInstance = some inst) (h : ¬ r.Claims scan op inst) :
    (r.exec scan op).2.endpoints = r.endpoints := by
  cases op <;> simp only [Op.newInstance, reduceCtorEq, Option.some.injEq] at hnew
  case register_instance inst' env =>
    subst hnew
    simp only [exec, Outcome.map_snd]
    refine register_instance_unopened fun hboth => h ⟨rfl, ⟨env, rfl, hboth.1⟩, ?_, hboth.2⟩
    intro _ _ hop
    cases hop
  case supersede old_id inst' env =>
    subst hnew
    simp only [exec, Outcome.map_snd]
    rcases hold : r.instances[old_id]? with _ | old
    · refine supersede_state_rule (P := fun t => t.endpoints = r.endpoints) rfl fun _ old hold' _ => ?_
      cases hold.symm.trans hold'
    by_cases ha : r.Accepts env
    · rw [supersede_marked ha hold]
      refine (register_instance_unopened fun hboth => h ⟨rfl, ⟨env, rfl, ha⟩, ?_, ?_⟩).trans rfl
      · rintro _ _ ⟨⟩
        rw [Std.ExtTreeMap.mem_iff_isSome_getElem?, hold]
        rfl
      · simpa only [Op.checkedIn, hold] using hboth.2
    · obtain ⟨e, he⟩ := authorized_rejected ha _
      rw [supersede, he]

/-! ## What is invented -/

/-- The call takes the endpoint over from another instance. -/
def TakesOver (r : Registry) (scan : List ServiceInstanceId) (op : Op) (eid : EndpointId) (ep : EndpointDescriptor) :
    Prop :=
  ∃ inst, r.Claims scan op inst ∧ eid ∈ r.taken scan op inst ∧ r.endpoints[eid]? = some ep ∧
    OwnedElsewhere (r.assignedId inst) ep

/-- A call that registers no instance vouches for nothing that it is not told. -/
theorem exec_vouches (hreports : op.reportsEndpoint = false) (hnew : op.newInstance = none) :
    r.InventsNothing (r.exec scan op).2 := by
  rw [inventsNothing_iff]
  intro eid ep ep' hep hep'
  have himage : op.class ≠ .image := by
    intro hc
    cases op <;> simp only [Op.class, Op.reportsEndpoint, reduceCtorEq] at hc hreports
  cases r.exec_endpoint_change scan op himage eid with
  | kept h =>
    obtain rfl := Option.some.inj (hep.symm.trans (h.symm.trans hep'))
    exact .refl ep
  | registered _ _ _ hop => rw [hop] at hreports; cases hreports
  | updated _ _ _ hop => rw [hop] at hreports; cases hreports
  | claimed _ _ _ hop => cases hnew.symm.trans hop
  | released _ old _ _ hold _ h =>
    obtain rfl := Option.some.inj (hep.symm.trans hold)
    obtain rfl := Option.some.inj (h.symm.trans hep')
    exact .released ep
  | revalidated old _ hold h =>
    obtain rfl := Option.some.inj (hep.symm.trans hold)
    obtain rfl := Option.some.inj (h.symm.trans hep')
    exact .revalidated ep

/-- A call that does not report on endpoints invents nothing if and only if every
endpoint that it takes over from another instance was verified and current. -/
theorem reachability_invented_iff (r : Registry) (scan : List ServiceInstanceId) (op : Op)
    (hreports : op.reportsEndpoint = false) : r.InventsNothing (r.exec scan op).2 ↔
      ∀ eid ep, r.TakesOver scan op eid ep → ¬ ep.Unverified ∧ ep.freshness = Freshness.CURRENT := by
  rcases hnew : op.newInstance with _ | inst
  · exact iff_of_true (exec_vouches hreports hnew) fun _ _ ⟨_, h, _⟩ => nomatch hnew.symm.trans h.call
  by_cases hclaims : r.Claims scan op inst
  · rw [inventsNothing_iff]
    constructor
    · rintro h eid ep ⟨inst', hclaims', hmem, hep, helsewhere⟩
      obtain rfl := Option.some.inj (hclaims.call.symm.trans hclaims'.call)
      have hep' := exec_claims hclaims eid
      rw [if_pos hmem, hep] at hep'
      exact (claimedBy_vouchesLess_iff _ _).1 (h eid ep _ hep hep') helsewhere
    · intro h eid ep ep' hep hep'
      rw [exec_claims hclaims eid, hep] at hep'
      split_ifs at hep' with hmem
      · obtain rfl := Option.some.inj hep'
        exact (claimedBy_vouchesLess_iff _ _).2 fun helsewhere => h eid ep ⟨inst, hclaims, hmem, hep, helsewhere⟩
      · obtain rfl := Option.some.inj hep'
        exact .refl ep
  · have hkept := exec_unclaimed hnew hclaims
    refine iff_of_true (inventsNothing_iff.2 fun eid ep ep' hep hep' => ?_) fun _ _ ⟨inst', h, _⟩ => ?_
    · rw [hkept] at hep'
      obtain rfl := Option.some.inj (hep.symm.trans hep')
      exact .refl ep
    · obtain rfl := Option.some.inj (hnew.symm.trans h.call)
      exact absurd h hclaims

end Registry

/-- The instance that served an endpoint is retired. -/
def Sample.abandoned (ep : EndpointDescriptor) : Registry := Registry.fresh.after [
  .adopt_worker ⟨1⟩, .register_service Sample.service Sample.env, .register_endpoint ep Sample.env,
  .register_instance Sample.listing Sample.env, .deregister ⟨5⟩ Sample.env]

/-- The next instance lists the endpoint. -/
def Sample.heir : Op := .register_instance { Sample.incarnation 6 2 with endpoints := [⟨7⟩] } Sample.env

namespace Registry

/-- An endpoint that was verified and current is taken over. -/
theorem reachability_invented_sample :
    let r := Sample.abandoned { Sample.endpoint with freshness := Freshness.CURRENT }
    r.InventsNothing (r.exec r.instances.keys Sample.heir).2 := by
  intro r
  refine (reachability_invented_iff r _ _ rfl).2 ?_
  rintro eid ep ⟨inst, hclaims, hmem, hep, _⟩
  obtain rfl := Option.some.inj hclaims.call
  have hlisted := (List.takeWhile_sublist _).subset hmem
  obtain rfl : eid = ⟨7⟩ := List.mem_singleton.1 hlisted
  have hverified : ∀ ep ∈ r.endpoints[(⟨7⟩ : EndpointId)]?, ¬ ep.Unverified ∧ ep.freshness = Freshness.CURRENT := by
    decide +kernel
  exact hverified ep hep

/-- An endpoint that nobody has reached is taken over, and is reachable and current. -/
theorem reachability_invented :
    let r := Sample.abandoned { Sample.endpoint with reachability := Reachability.UNKNOWN }
    r.Reachable ∧ ¬ r.InventsNothing (r.exec r.instances.keys Sample.heir).2 := by
  intro r
  have hbefore : ∃ ep ∈ r.endpoints[(⟨7⟩ : EndpointId)]?, ep.Unverified := by decide +kernel
  have hafter : ∃ ep ∈ (r.exec r.instances.keys Sample.heir).2.endpoints[(⟨7⟩ : EndpointId)]?,
      ep.reachability = Reachability.REACHABLE := by decide +kernel
  obtain ⟨ep, hep, hunverified⟩ := hbefore
  obtain ⟨ep', hep', hreachable⟩ := hafter
  exact ⟨Reachable.after (.refl _) _, fun h => h.reachability ⟨7⟩ ep ep' hep hep' hunverified hreachable⟩

end Registry

end RuntimeRegistry
