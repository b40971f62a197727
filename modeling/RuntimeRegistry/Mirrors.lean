import RuntimeRegistry.Generations
import RuntimeRegistry.Scopes
/-!
# A call in two states

In two states that agree outside the scope of the other client, a call of a client
gives the same result and does the same writes, all of them in its own scope.
-/
open Lib

namespace RuntimeRegistry

namespace Registry

variable {α β : Type} {A B : Scope} {r s : Registry} {env : AuthorityEnvelope}

/-- The two outcomes, from `r` and from `s`, have the same result, and the same writes
of the client of scope `A` lead to them. -/
def Mirrored (A B : Scope) (r s : Registry) (o o' : Outcome α) : Prop :=
  o.1 = o'.1 ∧ ∃ ws, (∀ w ∈ ws, w.Safe A B) ∧ o.2 = r.written ws ∧ o'.2 = s.written ws

namespace Mirrored

theorem of_written {o o' : Outcome α} (x : Except RegistryError α) (ws : List Write) (hws : ∀ w ∈ ws, w.Safe A B)
    (ho : o = (x, r.written ws)) (ho' : o' = (x, s.written ws)) : Mirrored A B r s o o' :=
  ⟨by rw [ho, ho'], ws, hws, by rw [ho], by rw [ho']⟩

theorem unchanged (x : Except RegistryError α) : Mirrored A B r s (x, r) (x, s) :=
  of_written x [] (by simp) rfl rfl

theorem map {o o' : Outcome α} (h : Mirrored A B r s o o') (f : α → β) : Mirrored A B r s (o.map f) (o'.map f) :=
  ⟨congrArg (Except.map f) h.1, h.2⟩

theorem andThen {o o' : Outcome α} {k : α → Registry → Outcome β} (h : Mirrored A B r s o o')
    (hk : ∀ a ws, (∀ w ∈ ws, w.Safe A B) → Mirrored A B (r.written ws) (s.written ws) (k a (r.written ws)) (k a (s.written ws))) :
    Mirrored A B r s (o.andThen k) (o'.andThen k) := by
  obtain ⟨x, t⟩ := o
  obtain ⟨x', t'⟩ := o'
  obtain ⟨rfl, ws, hws, rfl, rfl⟩ := h
  rcases x with e | a
  · exact of_written (.error e) ws hws rfl rfl
  · obtain ⟨hsame, vs, hvs, hr, hs⟩ := hk a ws hws
    refine ⟨hsame, ws ++ vs, fun w hw => ?_, hr.trans (written_append r ws vs).symm, hs.trans (written_append s ws vs).symm⟩
    exact (List.mem_append.1 hw).elim (hws w) (hvs w)

theorem void {o o' : Outcome α} (h : Mirrored A B r s o o') : Mirrored A B r s o.void o'.void :=
  h.andThen fun _ _ _ => unchanged _

theorem authorized {body body' : Outcome α} (hagree : AgreeOutside B r s) (h : Mirrored A B r s body body') :
    Mirrored A B r s (r.authorized env body) (s.authorized env body') := by
  rw [Registry.authorized, Registry.authorized, hagree.validate_envelope env]
  split_ifs
  · exact unchanged _
  · exact h

end Mirrored

/-! ## Registrations of descriptors -/

section
variable {tag : IdTag} {gen : GenTag} {ρ : Type}

/-- A call whose record is stored under its own id, where both branches are writes. -/
theorem registerRecord_mirrored (D : Domain tag gen ρ) {x : ρ} (hagree : AgreeOutside B r s)
    (hnamed : D.withId = none ∨ (D.id x).value ≠ 0) (htable : (D.table r)[D.id x]? = (D.table s)[D.id x]?)
    (hreplace : ∀ current, ∃ ws, (∀ w ∈ ws, w.Safe A B) ∧
      ∀ t, D.commit x (D.replace current x t) = (.ok (D.id x), t.written ws))
    (hinsert : ∃ ws, (∀ w ∈ ws, w.Safe A B) ∧ ∀ t, D.commit x (D.insert x t) = (.ok (D.id x), t.written ws)) :
    Mirrored A B r s (registerRecord D r x env) (registerRecord D s x env) := by
  refine .authorized hagree ?_
  have hfenced : D.fenced x r = D.fenced x s := by simp only [Domain.fenced, covered_by_tombstone, hagree.tombstones]
  rw [htable, hfenced]
  split
  · rename_i current _
    split_ifs
    · exact .unchanged _
    · exact .of_written _ [.count .duplicate] (by simp [Write.Safe]) rfl rfl
    · obtain ⟨ws, hws, hwrites⟩ := hreplace current
      exact .of_written _ ws hws (hwrites r) (hwrites s)
  · split
    · exact .of_written _ [.count .stale] (by simp [Write.Safe]) rfl rfl
    · rw [Domain.assign_named hnamed, Domain.assign_named hnamed]
      obtain ⟨ws, hws, hwrites⟩ := hinsert
      exact .of_written _ ws hws (hwrites r) (hwrites s)

end

theorem register_service_mirrored {svc : ServiceDescriptor} (hagree : AgreeOutside B r s) (hAB : A.Disjoint B)
    (hid : svc.service_id ∈ A.services) : Mirrored A B r s (r.register_service svc env) (s.register_service svc env) := by
  refine .void (registerRecord_mirrored services_ hagree (.inl rfl)
    (hagree.services _ (hAB.services _ hid)) (fun current => ?_) ?_)
  · exact ⟨[.set_service svc.service_id svc, .raise_service svc.generation, .commit, .reindex],
      by simp [Write.Safe, hid], fun _ => rfl⟩
  · exact ⟨[.set_service svc.service_id svc, .count .services, .raise_service svc.generation, .commit, .reindex],
      by simp [Write.Safe, hid], fun _ => rfl⟩

theorem register_endpoint_mirrored {ep : EndpointDescriptor} (hagree : AgreeOutside B r s) (hAB : A.Disjoint B)
    (hnamed : ep.endpoint_id.value ≠ 0) (hid : ep.endpoint_id ∈ A.endpoints) (hep : B.ExcludesOwner ep) :
    Mirrored A B r s (r.register_endpoint ep env) (s.register_endpoint ep env) := by
  refine registerRecord_mirrored endpoints_ hagree (.inr hnamed)
    (hagree.endpoints _ (hAB.endpoints _ hid)) (fun current => ?_) ?_
  · exact ⟨[.history_endpoint current, .set_endpoint ep.endpoint_id ep, .count .replaced, .raise_endpoint ep.generation,
      .commit], by simp [Write.Safe, hid, hep], fun _ => rfl⟩
  · exact ⟨[.set_endpoint ep.endpoint_id ep, .history_endpoint ep, .count .endpoints, .raise_endpoint ep.generation,
      .commit], by simp [Write.Safe, hid, hep], fun _ => rfl⟩

theorem register_capability_mirrored {cap : CapabilityDescriptor} (hagree : AgreeOutside B r s) (hAB : A.Disjoint B)
    (hnamed : cap.capability_id.value ≠ 0) (hid : cap.capability_id ∈ A.capabilities) :
    Mirrored A B r s (r.register_capability cap env) (s.register_capability cap env) := by
  refine registerRecord_mirrored capabilities_ hagree (.inr hnamed)
    (hagree.capabilities _ (hAB.capabilities _ hid)) (fun current => ?_) ?_
  · exact ⟨[.history_capability current, .set_capability cap.capability_id cap, .count .replaced,
      .raise_capability cap.generation, .commit], by simp [Write.Safe, hid], fun _ => rfl⟩
  · exact ⟨[.set_capability cap.capability_id cap, .history_capability cap, .count .capabilities,
      .raise_capability cap.generation, .commit], by simp [Write.Safe, hid], fun _ => rfl⟩

/-! ## Updates -/

theorem updateInstance_mirrored {id : ServiceInstanceId} {write : ServiceInstance → ServiceInstance}
    {stale : RegistryError} (hagree : AgreeOutside B r s) (henclosed : r.Enclosed B) (hAB : A.Disjoint B)
    (hid : id ∈ A.instances) (hwrite : ∀ inst, B.Excludes inst → B.Excludes (write inst)) :
    Mirrored A B r s (r.updateInstance id write stale env) (s.updateInstance id write stale env) := by
  refine .authorized hagree ?_
  rw [← hagree.instances id (hAB.instances id hid)]
  split
  · exact .unchanged _
  · rename_i inst hi
    have hinst : B.Excludes (write inst) := hwrite inst (henclosed.instances id inst hi (hAB.instances id hid))
    split_ifs
    · exact .of_written _ [.count .stale] (by simp [Write.Safe]) rfl rfl
    · rw [← hagree.reclassify hinst]
      refine .of_written _ [.set_instance id (r.reclassify_lifecycle (write inst)), .commit] ?_ rfl rfl
      simp [Write.Safe, hid, r.excludes_reclassify hinst]

/-- The instance that the endpoint is bound to is one of the client's. -/
def OwnsEndpoint (A : Scope) (r : Registry) (eid : EndpointId) : Prop :=
  ∀ ep, r.endpoints[eid]? = some ep → ep.service_instance.value ≠ 0 → ep.service_instance ∈ A.instances

theorem update_reachability_mirrored {eid : EndpointId} {rc : Enum Reachability} (hagree : AgreeOutside B r s)
    (henclosed : r.Enclosed B) (hAB : A.Disjoint B) (hid : eid ∈ A.endpoints) (howner : OwnsEndpoint A r eid) :
    Mirrored A B r s (r.update_reachability eid rc env) (s.update_reachability eid rc env) := by
  refine .authorized hagree ?_
  rw [← hagree.endpoints eid (hAB.endpoints eid hid)]
  split
  · exact .unchanged _
  · rename_i ep hep
    have hset : (Write.set_endpoint eid { ep with reachability := rc }).Safe A B :=
      ⟨hid, henclosed.endpoints eid ep hep (hAB.endpoints eid hid)⟩
    have hagree' := hagree.run (.set_endpoint eid { ep with reachability := rc })
    split_ifs
    · exact .of_written _ [.count .stale] (by simp [Write.Safe]) rfl rfl
    · unfold reclassifyOwner
      split_ifs with hbound
      · have hmine := howner ep hep hbound
        have hother := hAB.instances _ hmine
        have hlookup := hagree.instances _ hother
        dsimp only
        rw [← hlookup]
        split
        · rename_i inst hi
          have hinst := henclosed.instances _ inst hi hother
          have hsame := hagree'.reclassify hinst
          refine .of_written _ [.set_endpoint eid { ep with reachability := rc }, .set_instance ep.service_instance
            (reclassify_lifecycle { r with endpoints := r.endpoints.insert eid { ep with reachability := rc } } inst),
            .commit] ?_ rfl ?_
          · simp only [List.forall_mem_cons]
            exact ⟨hset, ⟨hmine, excludes_reclassify _ hinst⟩, trivial, by simp⟩
          · exact congrArg (fun x => (_, (Registry.commit_registry_generation { s with
              endpoints := s.endpoints.insert eid { ep with reachability := rc }
              instances := s.instances.insert ep.service_instance x }))) hsame.symm
        · exact .of_written _ [.set_endpoint eid { ep with reachability := rc }, .commit]
            (by simpa [Write.Safe] using hset) rfl rfl
      · exact .of_written _ [.set_endpoint eid { ep with reachability := rc }, .commit]
          (by simpa [Write.Safe] using hset) rfl rfl

/-! ## Registration of an instance -/

/-- `register_instance` of an instance with an id of its own, once the walk has found
the current instance. -/
def registerFound (r : Registry) (found : Option (ServiceInstanceId × ServiceInstance)) (inst : ServiceInstance)
    (env : AuthorityEnvelope) : Outcome ServiceInstanceId :=
  authorized r env <|
  if inst.service_id ∉ r.services then
    (.error ⟨.UNKNOWN_IDENTITY, text "instance references unregistered ServiceId"⟩, r)
  else
    match found with
    | some (id, current) =>
      if inst.instance_generation = current.instance_generation && inst == current then (.ok inst.instance_id, r)
      else if inst.instance_generation ≤ current.instance_generation then
        (.error ⟨.STALE_INSTANCE_GENERATION,
          text "registration rejected because ServiceInstanceGeneration " ++ to_string inst.instance_generation.value ++
            text " is stale; current " ++ to_string current.instance_generation.value⟩, r.countDuplicate)
      else (r.supersedeCurrent id current).bindInstance inst
    | none =>
      if r.covered_by_tombstone (text "ServiceId") (to_string inst.service_id.value) inst.instance_generation.value then
        (.error ⟨.TOMBSTONE_RESURRECTION, text "instance resurrected by tombstone"⟩, r.countStale)
      else r.bindInstance inst

theorem register_instance_found {scan : List ServiceInstanceId} {inst : ServiceInstance}
    (hnamed : inst.instance_id.value ≠ 0) (env : AuthorityEnvelope) :
    r.register_instance scan inst env = r.registerFound (r.currentInstance scan inst.service_id) inst env := by
  unfold register_instance registerFound
  rcases hassign : assignInstance inst r with ⟨copy, r'⟩
  obtain ⟨rfl, rfl⟩ : inst = copy ∧ r = r' := Prod.mk.inj ((if_neg hnamed).symm.trans hassign)
  rfl

theorem claimEndpoint_mirrored {id : ServiceInstanceId} {eid : EndpointId} (hagree : AgreeOutside B r s)
    (henclosed : r.Enclosed B) (hAB : A.Disjoint B) (hid : id ∈ A.instances) (heid : eid ∈ A.endpoints) :
    Mirrored A B r s (r.claimEndpoint id eid) (s.claimEndpoint id eid) := by
  have hother := hAB.endpoints eid heid
  unfold claimEndpoint
  rw [← hagree.endpoints eid hother]
  split
  · exact .unchanged _
  · rename_i ep hep
    have hclaim : ∀ ep' : EndpointDescriptor, ep'.service_instance = id →
        ∀ w ∈ [Write.set_endpoint eid ep'], w.Safe A B := by
      intro ep' howner
      rw [List.forall_mem_singleton]
      exact ⟨heid, fun _ => howner ▸ hAB.instances id hid⟩
    by_cases hfree : ep.service_instance.value = 0
    · rw [if_pos hfree, if_pos hfree]
      exact .of_written _ [.set_endpoint eid { ep with service_instance := id }] (hclaim _ rfl) rfl rfl
    · rw [if_neg hfree, if_neg hfree]
      have hinactive : s.inactive ep.service_instance = r.inactive ep.service_instance := by
        rw [inactive, inactive, hagree.instances _ (henclosed.endpoints eid ep hep hother hfree)]
      rw [hinactive]
      split_ifs
      · exact .of_written _ [.count .duplicate] (by simp [Write.Safe]) rfl rfl
      · exact .of_written _ [.set_endpoint eid { ep with
          service_instance := id, reachability := Reachability.REACHABLE, freshness := Freshness.CURRENT }]
          (hclaim _ rfl) rfl rfl
      · exact .unchanged _

theorem claimEndpoints_mirrored {id : ServiceInstanceId} {eids : List EndpointId} (hagree : AgreeOutside B r s)
    (henclosed : r.Enclosed B) (hAB : A.Disjoint B) (hid : id ∈ A.instances) (heids : ∀ eid ∈ eids, eid ∈ A.endpoints) :
    Mirrored A B r s (r.claimEndpoints id eids) (s.claimEndpoints id eids) := by
  induction eids generalizing r s with
  | nil => exact .unchanged _
  | cons eid eids ih =>
    rw [List.forall_mem_cons] at heids
    refine .andThen (claimEndpoint_mirrored hagree henclosed hAB hid heids.1) fun _ ws hws => ?_
    exact ih (hagree.written ws) (henclosed.written fun w hw => (hws w hw).spares) heids.2

theorem storeInstance_written (r : Registry) (copy : ServiceInstance) : r.storeInstance copy = r.written
    [.set_instance copy.instance_id copy, .history_instance copy, .count .instances,
      .set_instance copy.instance_id (r.reclassify_lifecycle copy), .commit, .reindex] := rfl

theorem bindInstance_mirrored {copy : ServiceInstance} (hagree : AgreeOutside B r s) (henclosed : r.Enclosed B)
    (hAB : A.Disjoint B) (hid : copy.instance_id ∈ A.instances) (heids : ∀ eid ∈ copy.endpoints, eid ∈ A.endpoints)
    (hcopy : B.Excludes copy) : Mirrored A B r s (r.bindInstance copy) (s.bindInstance copy) := by
  refine .andThen (claimEndpoints_mirrored hagree henclosed hAB hid heids) fun _ ws hws => ?_
  refine .of_written (.ok copy.instance_id) [.set_instance copy.instance_id copy, .history_instance copy, .count .instances,
    .set_instance copy.instance_id ((r.written ws).reclassify_lifecycle copy), .commit, .reindex] ?_ ?_ ?_
  · simp [Write.Safe, hid, hcopy, excludes_reclassify]
  · rw [storeInstance_written]
  · rw [storeInstance_written, (hagree.written ws).reclassify hcopy]

theorem registerFound_mirrored {found : Option (ServiceInstanceId × ServiceInstance)} {inst : ServiceInstance}
    (hagree : AgreeOutside B r s) (henclosed : r.Enclosed B) (hAB : A.Disjoint B) (hid : inst.instance_id ∈ A.instances)
    (hservice : inst.service_id ∈ A.services) (heids : ∀ eid ∈ inst.endpoints, eid ∈ A.endpoints)
    (hinst : B.Excludes inst) (hfound : ∀ c ∈ found, c.1 ∈ A.instances ∧ B.Excludes c.2) :
    Mirrored A B r s (r.registerFound found inst env) (s.registerFound found inst env) := by
  refine .authorized hagree ?_
  have hregistered : inst.service_id ∈ r.services ↔ inst.service_id ∈ s.services := by
    rw [Std.ExtTreeMap.mem_iff_isSome_getElem?, Std.ExtTreeMap.mem_iff_isSome_getElem?,
      hagree.services _ (hAB.services _ hservice)]
  have hcovered : s.covered_by_tombstone = r.covered_by_tombstone := by
    funext kind target floor
    rw [covered_by_tombstone, covered_by_tombstone, hagree.tombstones]
  by_cases hmem : inst.service_id ∈ r.services
  · rw [if_neg (not_not.2 hmem), if_neg (not_not.2 (hregistered.1 hmem)), hcovered]
    rcases found with _ | ⟨id, current⟩
    · dsimp only
      split_ifs
      · exact .of_written _ [.count .stale] (by simp [Write.Safe]) rfl rfl
      · exact bindInstance_mirrored hagree henclosed hAB hid heids hinst
    · dsimp only
      obtain ⟨hmine, hcurrent⟩ := hfound (id, current) rfl
      split_ifs
      · exact .unchanged _
      · exact .of_written _ [.count .duplicate] (by simp [Write.Safe]) rfl rfl
      · have hsafe : ∀ w ∈ [Write.history_instance current,
            .set_instance id { current with lifecycle := Lifecycle.SUPERSEDED }, .count .superseded], w.Safe A B := by
          simp only [List.forall_mem_cons]
          exact ⟨trivial, ⟨hmine, hcurrent.1, hcurrent.2, hcurrent.3⟩, trivial, by simp⟩
        have hsuperseded : Mirrored A B r s (.ok (), r.supersedeCurrent id current)
          (.ok (), s.supersedeCurrent id current) := .of_written _ _ hsafe rfl rfl
        refine hsuperseded.andThen (k := fun _ t => t.bindInstance inst) fun _ ws hws => ?_
        exact bindInstance_mirrored (hagree.written ws) (henclosed.written fun w hw => (hws w hw).spares) hAB hid heids hinst
  · rw [if_pos hmem, if_pos (hregistered.not.1 hmem)]
    exact .unchanged _

end Registry

end RuntimeRegistry
