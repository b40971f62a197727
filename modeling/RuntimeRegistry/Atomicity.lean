import RuntimeRegistry.Rules
/-!
# When a registration of an instance throws without a trace

`register_instance` takes an id, supersedes the current instance and binds the
endpoints before its last check, and undoes nothing. The refusals are sorted here
into those before the first write and those behind one.
-/
open Lib

namespace RuntimeRegistry

namespace Registry

variable {r : Registry} {env : AuthorityEnvelope}

/-! ## The state but for the counts of refusals -/

def withoutRejections (r : Registry) : Registry :=
  { r with accounting := { r.accounting with stale_mutation_rejections := 0, duplicate_conflict_rejections := 0 } }

/-- `t` is `r` but for the two counts of refusals. -/
def SameButRejections (r t : Registry) : Prop := t.withoutRejections = r.withoutRejections

/-- What a call throws, it throws with the state it found. -/
def ThrowsUnchanged {α : Type} (r : Registry) (o : Outcome α) : Prop :=
  ∀ e t, o = (.error e, t) → r.SameButRejections t

theorem SameButRejections.refl (r : Registry) : r.SameButRejections r := rfl

theorem SameButRejections.countDuplicate (r : Registry) : r.SameButRejections r.countDuplicate := rfl

theorem SameButRejections.countStale (r : Registry) : r.SameButRejections r.countStale := rfl

theorem SameButRejections.endpoints {t : Registry} (h : r.SameButRejections t) : t.endpoints = r.endpoints :=
  congrArg (·.endpoints) (show t.withoutRejections = r.withoutRejections from h)

theorem SameButRejections.instance_history {t : Registry} (h : r.SameButRejections t) :
    t.instance_history = r.instance_history :=
  congrArg (·.instance_history) (show t.withoutRejections = r.withoutRejections from h)

theorem SameButRejections.next_id {t : Registry} (h : r.SameButRejections t) : t.next_id = r.next_id :=
  congrArg (·.next_id) (show t.withoutRejections = r.withoutRejections from h)

theorem throwsUnchanged_ok {α : Type} (a : α) (r t : Registry) : r.ThrowsUnchanged (.ok a, t) := by
  intro e s h
  cases h

theorem throwsUnchanged_error {α : Type} (e : RegistryError) (t : Registry) :
    r.ThrowsUnchanged ((.error e, t) : Outcome α) ↔ r.SameButRejections t :=
  ⟨fun h => h e t rfl, by rintro h _ _ ⟨⟩; exact h⟩

/-! ## The endpoint loop -/

/-- The endpoint is stored, and bound to nobody, to the instance itself or to an
incarnation that is over. -/
def claimable (r : Registry) (id : ServiceInstanceId) (eid : EndpointId) : Bool :=
  match r.endpoints[eid]? with
  | none => false
  | some ep => ep.service_instance.value = 0 || ep.service_instance = id || r.inactive ep.service_instance

/-- The endpoint is stored and bound to the instance. -/
def BoundTo (r : Registry) (id : ServiceInstanceId) (eid : EndpointId) : Prop :=
  ∃ ep, r.endpoints[eid]? = some ep ∧ ep.service_instance = id

/-- What one round does: it binds a claimable endpoint, or throws. -/
theorem claimEndpoint_cases (r : Registry) (id : ServiceInstanceId) (eid : EndpointId) :
    (∃ ep, r.claimable id eid ∧ ep.service_instance = id ∧
      r.claimEndpoint id eid = (.ok (), { r with endpoints := r.endpoints.insert eid ep })) ∨
    (r.claimable id eid ∧ r.BoundTo id eid ∧ r.claimEndpoint id eid = (.ok (), r)) ∨
    ∃ e t, r.claimable id eid = false ∧ r.SameButRejections t ∧ r.claimEndpoint id eid = (.error e, t) := by
  unfold claimEndpoint claimable
  rcases h : r.endpoints[eid]? with _ | ep
  · exact .inr (.inr ⟨_, r, rfl, .refl r, rfl⟩)
  dsimp only
  split_ifs with h₁ h₂ h₃
  · exact .inl ⟨{ ep with service_instance := id }, by simp [h₁], rfl, rfl⟩
  · have hi : r.inactive ep.service_instance = false := by simpa using h₃
    exact .inr (.inr ⟨_, _, by simp [h₁, h₂, hi], .countDuplicate r, rfl⟩)
  · have hi : r.inactive ep.service_instance = true := by simpa using h₃
    exact .inl ⟨_, by simp [hi], rfl, rfl⟩
  · have hid : ep.service_instance = id := not_not.1 h₂
    exact .inr (.inl ⟨by simp [hid], ⟨ep, h, hid⟩, rfl⟩)

/-- Binding an endpoint makes none claimable and none unclaimable. -/
theorem claimable_bind {id : ServiceInstanceId} {eid : EndpointId} {ep : EndpointDescriptor}
    (h : r.claimable id eid) (hep : ep.service_instance = id) (e : EndpointId) :
    { r with endpoints := r.endpoints.insert eid ep }.claimable id e = r.claimable id e := by
  by_cases he : eid = e
  · subst he
    rw [h]
    simp [claimable, hep]
  · simp [claimable, inactive, Std.ExtTreeMap.getElem?_insert, he]

theorem BoundTo.bind {id : ServiceInstanceId} {eid e : EndpointId} {ep : EndpointDescriptor}
    (hep : ep.service_instance = id) (h : r.BoundTo id e) :
    { r with endpoints := r.endpoints.insert eid ep }.BoundTo id e := by
  by_cases he : eid = e
  · exact ⟨ep, by simp [he], hep⟩
  · obtain ⟨ep', h', hid⟩ := h
    exact ⟨ep', by simpa [Std.ExtTreeMap.getElem?_insert, he] using h', hid⟩

/-- A loop over claimable endpoints goes through, and no other does. -/
theorem claimEndpoints_ok_iff (id : ServiceInstanceId) (eids : List EndpointId) (r : Registry) :
    (∃ t, r.claimEndpoints id eids = (.ok (), t)) ↔ ∀ eid ∈ eids, r.claimable id eid := by
  induction eids generalizing r with
  | nil => simp [claimEndpoints]
  | cons eid eids ih =>
    rw [claimEndpoints, List.forall_mem_cons]
    rcases claimEndpoint_cases r id eid with ⟨ep, hc, hep, h⟩ | ⟨hc, -, h⟩ | ⟨e, t, hc, -, h⟩
    · simp only [h, Outcome.andThen_ok, ih, claimable_bind hc hep, hc, true_and]
    · simp only [h, Outcome.andThen_ok, ih, hc, true_and]
    · simp [h, hc]

/-- The loop ends with every endpoint before the first unclaimable one bound. -/
theorem claimEndpoints_bound (id : ServiceInstanceId) (eids : List EndpointId) (r : Registry) :
    (∀ e, r.BoundTo id e → (r.claimEndpoints id eids).2.BoundTo id e) ∧
    ∀ eid ∈ eids.takeWhile (r.claimable id), (r.claimEndpoints id eids).2.BoundTo id eid := by
  induction eids generalizing r with
  | nil => exact ⟨fun _ h => h, by simp⟩
  | cons eid eids ih =>
    rw [claimEndpoints, List.takeWhile_cons]
    rcases claimEndpoint_cases r id eid with ⟨ep, hc, hep, h⟩ | ⟨hc, hb, h⟩ | ⟨e, t, hc, hs, h⟩
    · obtain ⟨h₁, h₂⟩ := ih { r with endpoints := r.endpoints.insert eid ep }
      simp only [h, hc, if_true, Outcome.andThen_ok, List.forall_mem_cons]
      refine ⟨fun e he => h₁ e (he.bind hep), h₁ eid ⟨ep, by simp, hep⟩, ?_⟩
      rwa [funext (claimable_bind hc hep)] at h₂
    · obtain ⟨h₁, h₂⟩ := ih r
      simp only [h, hc, if_true, Outcome.andThen_ok, List.forall_mem_cons]
      exact ⟨h₁, h₁ eid hb, h₂⟩
    · have he : t.endpoints = r.endpoints := hs.endpoints
      simp only [h, hc, Outcome.andThen_error]
      exact ⟨fun e hb => by simpa [BoundTo, he] using hb, by simp⟩

/-- A loop that throws has left no trace if what it passed was bound already. -/
theorem claimEndpoints_untraced {id : ServiceInstanceId} {eids : List EndpointId}
    (hid : id.value ≠ 0) (hb : ∀ eid ∈ eids.takeWhile (r.claimable id), r.BoundTo id eid) :
    r.SameButRejections (r.claimEndpoints id eids).2 := by
  induction eids with
  | nil => rfl
  | cons eid eids ih =>
    rw [claimEndpoints]
    rw [List.takeWhile_cons] at hb
    rcases claimEndpoint_cases r id eid with ⟨ep, hc, hep, h⟩ | ⟨hc, -, h⟩ | ⟨e, t, hc, hs, h⟩
    · rw [hc, if_pos rfl, List.forall_mem_cons] at hb
      obtain ⟨⟨ep', hep', hid'⟩, hb⟩ := hb
      have hkeep : r.claimEndpoint id eid = (.ok (), r) := by
        simp [claimEndpoint, hep', hid', hid]
      rw [hkeep]
      exact ih hb
    · rw [hc, if_pos rfl, List.forall_mem_cons] at hb
      rw [h]
      exact ih hb.2
    · rw [h]
      exact hs

/-! ## Which refusals leave no trace -/

/-- `register_instance` returns, or refuses before its first write:
 - a new generation supersedes only if every endpoint can be claimed;
 - a stale or fenced registration must bring its own id, since a fresh one is
   taken before the check;
 - a first registration that meets an endpoint it cannot claim must have bound
   every endpoint before it already. -/
def RefusesFirst (r : Registry) (scan : List ServiceInstanceId) (inst : ServiceInstance) : Prop :=
  match r.currentInstance scan inst.service_id with
  | some (id, current) =>
    if current.instance_generation < inst.instance_generation then
      ∀ eid ∈ inst.endpoints, (r.supersedeCurrent id current).claimable (r.assignedId inst) eid
    else inst.instance_id.value ≠ 0 ∨
      inst.instance_generation = current.instance_generation ∧ { inst with instance_id := r.assignedId inst } == current
  | none =>
    if r.covered_by_tombstone (text "ServiceId") (to_string inst.service_id.value) inst.instance_generation.value then
      inst.instance_id.value ≠ 0
    else (∀ eid ∈ inst.endpoints, r.claimable (r.assignedId inst) eid) ∨
      inst.instance_id.value ≠ 0 ∧
        ∀ eid ∈ inst.endpoints.takeWhile (r.claimable inst.instance_id), r.BoundTo inst.instance_id eid

/-! ## The calls -/

/-- Taking an id shows in the state, so a call that takes one throws with a trace. -/
theorem not_sameButRejections_of_next_id {t : Registry} (h : t.next_id = r.next_id + 1) : ¬ r.SameButRejections t := by
  intro hs
  have hsucc := h.symm.trans hs.next_id
  rw [← UInt64.toNat_inj, UInt64.toNat_add, UInt64.toNat_one] at hsucc
  have := r.next_id.toNat_lt
  omega

/-- Binding throws without a trace of its own iff it goes through or everything
before the first unclaimable endpoint is bound already. -/
theorem throwsUnchanged_bindInstance {copy : ServiceInstance} (hid : copy.instance_id.value ≠ 0) :
    r.ThrowsUnchanged (r.bindInstance copy) ↔ (∀ eid ∈ copy.endpoints, r.claimable copy.instance_id eid) ∨
      ∀ eid ∈ copy.endpoints.takeWhile (r.claimable copy.instance_id), r.BoundTo copy.instance_id eid := by
  have hok := claimEndpoints_ok_iff copy.instance_id copy.endpoints r
  refine bindInstance_rule (P := fun o => r.ThrowsUnchanged o ↔ _) (fun e t h => ?_) fun t h => ?_
  · rw [throwsUnchanged_error]
    have hnot : ¬ ∀ eid ∈ copy.endpoints, r.claimable copy.instance_id eid := by
      rw [← hok]
      rintro ⟨s, hs⟩
      cases h.symm.trans hs
    rw [or_iff_right hnot]
    have ht : t = (r.claimEndpoints copy.instance_id copy.endpoints).2 := by rw [h]
    constructor
    · intro hs eid heid
      obtain ⟨ep, hep, hb⟩ := (claimEndpoints_bound copy.instance_id copy.endpoints r).2 eid heid
      rw [← ht, hs.endpoints] at hep
      exact ⟨ep, hep, hb⟩
    · exact fun hb => ht ▸ claimEndpoints_untraced hid hb
  · exact iff_of_true (throwsUnchanged_ok _ _ _) (.inl (hok.1 ⟨t, h⟩))

/-- Where every throw of the loop leaves a trace, not to throw is to go through. -/
theorem throwsUnchanged_bindInstance_of_trace {s : Registry} {copy : ServiceInstance}
    (htrace : ∀ e t, s.claimEndpoints copy.instance_id copy.endpoints = (.error e, t) → ¬ r.SameButRejections t) :
    r.ThrowsUnchanged (s.bindInstance copy) ↔ ∀ eid ∈ copy.endpoints, s.claimable copy.instance_id eid := by
  rw [← claimEndpoints_ok_iff]
  refine bindInstance_rule (P := fun o => r.ThrowsUnchanged o ↔ _) (fun e t h => ?_) fun t h => ?_
  · rw [throwsUnchanged_error]
    refine iff_of_false (htrace e t h) ?_
    rintro ⟨s, hs⟩
    cases h.symm.trans hs
  · exact iff_of_true (throwsUnchanged_ok _ _ _) ⟨t, h⟩

/-- A registration that throws leaves the state as it found it, up to the counts
of refusals, exactly if it refuses before its first write. -/
theorem register_instance_throws_unchanged_iff (r : Registry) (scan : List ServiceInstanceId) (inst : ServiceInstance)
    (env : AuthorityEnvelope) :
    r.ThrowsUnchanged (r.register_instance scan inst env) ↔
      (r.Accepts env → inst.service_id ∈ r.services → r.RefusesFirst scan inst) := by
  have hnext : inst.instance_id.value = 0 → r.assignedNext inst = r.next_id + 1 := fun h => if_pos h
  have hown : inst.instance_id.value ≠ 0 → r.assignedId inst = inst.instance_id ∧ r.assignedNext inst = r.next_id :=
    fun h => ⟨if_neg h, if_neg h⟩
  refine register_instance_rule (P := fun o => r.ThrowsUnchanged o ↔ _) ?_ ?_ ?_ ?_ ?_ ?_ ?_
  · exact fun e ha => iff_of_true ((throwsUnchanged_error e r).2 (.refl r)) fun h => absurd h ha
  · exact fun _ hs e => iff_of_true ((throwsUnchanged_error e r).2 (.refl r)) fun _ h => absurd h hs
  · intro ha hs id current hc hgen heq
    refine iff_of_true (throwsUnchanged_ok _ _ _) fun _ _ => ?_
    simp only [RefusesFirst, hc, if_neg hgen.not_gt]
    exact .inr ⟨hgen, heq⟩
  · intro ha hs id current hc hle hnot e
    rw [throwsUnchanged_error]
    by_cases hid : inst.instance_id.value = 0
    · refine iff_of_false (not_sameButRejections_of_next_id (hnext hid)) fun h => ?_
      simpa [RefusesFirst, hc, hle.not_gt, hid, hnot] using h ha hs
    · rw [(hown hid).2]
      exact iff_of_true (.countDuplicate r) fun _ _ => by simp [RefusesFirst, hc, hle.not_gt, hid]
  · intro ha hs id current hc hlt
    rw [throwsUnchanged_bindInstance_of_trace]
    · have hclaim : ({ r with next_id := r.assignedNext inst }.supersedeCurrent id current).claimable =
        (r.supersedeCurrent id current).claimable := rfl
      simp [RefusesFirst, hc, hlt, ha, hs, hclaim]
    · -- the superseded instance is in history
      intro e t h hsame
      obtain ⟨_, _, hw⟩ := claimEndpoints_writes (r.assignedId inst) inst.endpoints
        ({ r with next_id := r.assignedNext inst }.supersedeCurrent id current)
      rw [h] at hw
      have hlen := congrArg List.length hsame.instance_history
      simp [show t = _ from hw, supersedeCurrent] at hlen
  · intro ha hs hc hcov e
    rw [throwsUnchanged_error]
    by_cases hid : inst.instance_id.value = 0
    · refine iff_of_false (not_sameButRejections_of_next_id (hnext hid)) fun h => ?_
      simpa [RefusesFirst, hc, hcov, hid] using h ha hs
    · rw [(hown hid).2]
      exact iff_of_true (.countStale r) fun _ _ => by simp [RefusesFirst, hc, hcov, hid]
  · intro ha hs hc hcov
    by_cases hid : inst.instance_id.value = 0
    · rw [throwsUnchanged_bindInstance_of_trace]
      · have hclaim : { r with next_id := r.assignedNext inst }.claimable = r.claimable := rfl
        simp [RefusesFirst, hc, hcov, hid, ha, hs, hclaim]
      · intro e t h
        obtain ⟨_, _, hw⟩ := claimEndpoints_writes (r.assignedId inst) inst.endpoints
          { r with next_id := r.assignedNext inst }
        rw [h] at hw
        exact not_sameButRejections_of_next_id (by simp [show t = _ from hw, hnext hid])
    · have hid' : (r.assignedId inst).value ≠ 0 := by rwa [(hown hid).1]
      rw [(hown hid).2, throwsUnchanged_bindInstance hid']
      simp [RefusesFirst, hc, hcov, hid, ha, hs, (hown hid).1]

/-- A second generation that lists an endpoint nobody registered is refused after
the first one has been superseded. -/
theorem register_instance_throws_after_superseding :
    let o := Sample.registry.register_instance Sample.registry.instances.keys
      { Sample.incarnation 6 2 with endpoints := [⟨9⟩] } Sample.env
    Sample.registry.Reachable ∧ ¬ Sample.registry.ThrowsUnchanged o ∧
      o.2.instances[(⟨5⟩ : ServiceInstanceId)]?.map (·.lifecycle) = some (Lifecycle.SUPERSEDED : Enum Lifecycle) := by
  intro o
  refine ⟨Sample.registry_reachable.reachable, fun h => ?_, by decide +kernel⟩
  have hthrow : o.1.isOk = false := by decide +kernel
  have hlen : o.2.instance_history.length ≠ Sample.registry.instance_history.length := by decide +kernel
  rcases ho : o with ⟨e | _, t⟩
  · exact hlen (by rw [ho, (h e t ho).instance_history])
  · rw [ho] at hthrow
    cases hthrow

/-! ## The history of the instances -/

theorem claimEndpoints_history (id : ServiceInstanceId) (eids : List EndpointId) (r : Registry) :
    (r.claimEndpoints id eids).2.instance_history = r.instance_history := by
  obtain ⟨_, _, h⟩ := claimEndpoints_writes id eids r
  rw [h]

theorem storeInstance_history (r : Registry) (copy : ServiceInstance) :
    (r.storeInstance copy).instance_history = r.instance_history ++ [copy] := by
  unfold storeInstance
  obtain ⟨_, _, _, _, h⟩ := rebuild_indexes_writes (Registry.commit_registry_generation _)
  rw [h]
  rfl

/-- Binding appends the instance to the history if it returns, and nothing if not. -/
theorem bindInstance_appends (r : Registry) (copy : ServiceInstance) :
    r.instance_history <+: (r.bindInstance copy).2.instance_history ∧
      ((r.bindInstance copy).Returns → copy ∈ (r.bindInstance copy).2.instance_history) := by
  have hclaims := claimEndpoints_history copy.instance_id copy.endpoints r
  apply bindInstance_rule (P := fun o => r.instance_history <+: o.2.instance_history ∧
    (o.Returns → copy ∈ o.2.instance_history))
  case refused =>
    intro e t h
    rw [h] at hclaims
    have hkept : t.instance_history = r.instance_history := hclaims
    exact ⟨hkept ▸ List.prefix_rfl, fun hr => absurd hr (Outcome.not_returns_error e t)⟩
  case stored =>
    intro t h
    rw [h] at hclaims
    simp [storeInstance_history, show t.instance_history = r.instance_history from hclaims]

/-- A registration only appends to the history. -/
theorem register_instance_extends (r : Registry) (scan : List ServiceInstanceId) (inst : ServiceInstance)
    (env : AuthorityEnvelope) :
    r.instance_history <+: (r.register_instance scan inst env).2.instance_history := by
  apply register_instance_state_rule (P := fun t => r.instance_history <+: t.instance_history)
  case kept => exact fun _ _ _ => List.prefix_rfl
  case first =>
    exact fun _ _ _ _ => (bindInstance_appends { r with next_id := r.assignedNext inst }
      { inst with instance_id := r.assignedId inst }).1
  case superseded =>
    intro _ _ id current _ _
    have hbind := (bindInstance_appends ({ r with next_id := r.assignedNext inst }.supersedeCurrent id current)
      { inst with instance_id := r.assignedId inst }).1
    exact (List.prefix_append r.instance_history [current]).trans hbind

end Registry

end RuntimeRegistry
