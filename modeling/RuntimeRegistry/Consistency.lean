import RuntimeRegistry.References
import RuntimeRegistry.Truncation
import RuntimeRegistry.Validity
/-!
# The indexes and the references over a run

A call keeps the four indexes as the instances give them: it leaves the fields that
an index is filled from, or it fills the indexes again before it ends. The service and
the endpoints of an instance are looked up when it is registered, and stay.
-/
open Lib Lib.Table

namespace RuntimeRegistry

namespace Registry

variable {r s t : Registry} {env : AuthorityEnvelope} {scan : List ServiceInstanceId} {op : Op} {e : Event}
  {inst : ServiceInstance} {k : ServiceInstanceId}

/-! ## The indexes -/

/-- The fields that the indexes are filled from. -/
def indexFields (inst : ServiceInstance) : ServiceId × ServiceInstanceId × WorkerBootId × NodeId :=
  (inst.service_id, inst.instance_id, inst.boot, inst.node)

theorem values_congr {tag : IdTag} {ρ β : Type} {m m' : Map tag ρ} {f : ρ → β}
    (h : ∀ k : Id tag, m'[k]?.map f = m[k]?.map f) :
    (values m').map f = (values m).map f := by
  have hvalues : ∀ m : Map tag ρ, (values m).map f = values (m.map fun _ => f) := by
    intro m
    rw [values, values, Std.ExtTreeMap.toList_map, List.map_map, List.map_map]
    rfl
  rw [hvalues, hvalues]
  congr 1
  refine Std.ExtTreeMap.ext_getElem? fun k => ?_
  rw [Std.ExtTreeMap.getElem?_map, Std.ExtTreeMap.getElem?_map, h]

/-- The two agree on the indexes and on what they are filled from. -/
structure Aligned (r t : Registry) : Prop where
  index_by_service : t.index_by_service = r.index_by_service
  index_by_boot : t.index_by_boot = r.index_by_boot
  index_by_node : t.index_by_node = r.index_by_node
  index_by_kind : t.index_by_kind = r.index_by_kind
  services : t.services = r.services
  instances : ∀ k : ServiceInstanceId, t.instances[k]?.map indexFields = r.instances[k]?.map indexFields

theorem Aligned.refl (r : Registry) : Aligned r r := ⟨rfl, rfl, rfl, rfl, rfl, fun _ => rfl⟩

theorem Aligned.trans (h : Aligned r s) (h' : Aligned s t) : Aligned r t where
  index_by_service := h'.index_by_service.trans h.index_by_service
  index_by_boot := h'.index_by_boot.trans h.index_by_boot
  index_by_node := h'.index_by_node.trans h.index_by_node
  index_by_kind := h'.index_by_kind.trans h.index_by_kind
  services := h'.services.trans h.services
  instances k := (h'.instances k).trans (h.instances k)

/-- A stored instance is replaced by one with the same fields. -/
theorem Aligned.replace {old : ServiceInstance} (hold : r.instances[k]? = some old) (new : ServiceInstance)
    (hsame : indexFields new = indexFields old) : Aligned r { r with instances := r.instances.insert k new } := by
  refine { Aligned.refl r with instances := fun k' => ?_ }
  rcases getElem?_insert_cases r.instances k k' new with ⟨rfl, h⟩ | ⟨_, h⟩
  · rw [h, hold, Option.map_some, Option.map_some, hsame]
  · rw [h]

theorem Indexed.aligned (h : r.Indexed) (ha : Aligned r t) : t.Indexed := by
  have hr : r.indexed = r := (rebuild_indexes_eq r).symm.trans h
  have hvalues : (values t.instances).map indexFields = (values r.instances).map indexFields := values_congr ha.instances
  -- an index is filled from the fields alone
  have hfill : ∀ {κ α : Type} [Ord κ] [Std.TransOrd κ] [Std.LawfulEqOrd κ] [Ord α] [Std.TransOrd α] [Std.LawfulEqOrd α]
      (keys : ServiceId × ServiceInstanceId × WorkerBootId × NodeId → Option κ)
      (id : ServiceId × ServiceInstanceId × WorkerBootId × NodeId → α),
      Index.fill (fun inst => keys (indexFields inst)) (fun inst => id (indexFields inst)) (values t.instances) ∅ =
        Index.fill (fun inst => keys (indexFields inst)) (fun inst => id (indexFields inst)) (values r.instances) ∅ := by
    intro κ α _ _ _ _ _ _ keys id
    rw [Index.fill_map, hvalues, ← Index.fill_map]
  have hkind : t.kindOf = r.kindOf := by
    funext inst
    rw [kindOf, kindOf, ha.services]
  have hfilled : t.indexed = { t with
      index_by_service := r.indexed.index_by_service, index_by_boot := r.indexed.index_by_boot
      index_by_node := r.indexed.index_by_node, index_by_kind := r.indexed.index_by_kind } := by
    unfold indexed
    rw [hkind]
    congr 1
    · exact hfill (fun x => r.services[x.1]?.map (·.kind)) (fun x => x.1)
    · exact hfill (fun x => some x.1) fun x => x.2.1
    · exact hfill (fun x => some x.2.2.1) fun x => x.2.1
    · exact hfill (fun x => some x.2.2.2) fun x => x.2.1
  rw [Indexed, rebuild_indexes_eq, hfilled, hr, ← ha.index_by_service, ← ha.index_by_boot, ← ha.index_by_node, ← ha.index_by_kind]

theorem rebuilt_indexed (r : Registry) : r.rebuild_indexes.Indexed := rebuild_indexes_idem r

theorem descriptor_indexed (hc : op.class = .descriptor) (h : r.Indexed) : (r.exec scan op).2.Indexed := by
  refine descriptor_rel (R := fun s t => s.Indexed → t.Indexed) hc (fun s _ _ h => h.aligned { Aligned.refl s with })
    (fun _ _ _ h h' hs => h' (h hs)) (fun h => ?_) h
  cases h
  case service => exact ⟨fun _ _ _ _ => rebuilt_indexed _, fun _ _ _ => rebuilt_indexed _⟩
  all_goals exact ⟨fun _ _ s h => h.aligned { Aligned.refl s with }, fun _ s h => h.aligned { Aligned.refl s with }⟩

theorem bindInstance_indexed (h : r.Indexed) (copy : ServiceInstance) : (r.bindInstance copy).2.Indexed := by
  apply bindInstance_rule (P := fun o => o.2.Indexed)
  case refused =>
    intro e u hu
    obtain ⟨_, _, hclaims⟩ := claimEndpoints_writes copy.instance_id copy.endpoints r
    rw [hu] at hclaims
    dsimp only at hclaims ⊢
    rw [hclaims]
    exact h.aligned { Aligned.refl r with }
  case stored => exact fun u _ => rebuilt_indexed _

theorem register_instance_indexed (h : r.Indexed) : (r.register_instance scan inst env).2.Indexed := by
  apply register_instance_state_rule (P := Indexed)
  case kept => exact fun _ _ _ => h.aligned { Aligned.refl r with }
  case superseded =>
    intro _ _ id current hcurrent _
    have hreplaced := Aligned.replace (currentInstance_some hcurrent).1 { current with lifecycle := Lifecycle.SUPERSEDED } rfl
    have hsuperseded : Aligned r ({ r with next_id := r.assignedNext inst }.supersedeCurrent id current) := { hreplaced with }
    exact bindInstance_indexed (h.aligned hsuperseded) _
  case first =>
    intro _ _ _ _
    have hnext : Aligned r { r with next_id := r.assignedNext inst } := { Aligned.refl r with }
    exact bindInstance_indexed (h.aligned hnext) _

theorem supersede_indexed {old_id : ServiceInstanceId} (h : r.Indexed) : (r.supersede scan old_id inst env).2.Indexed := by
  apply supersede_state_rule (P := Indexed) h
  intro _ old hold accounting
  have hreplaced := Aligned.replace hold { old with lifecycle := Lifecycle.SUPERSEDED } rfl
  have hmarked : Aligned r (r.markSuperseded old_id old) := { hreplaced with }
  have hregistered : ((r.markSuperseded old_id old).register_instance scan inst env).2.Indexed :=
    register_instance_indexed (h.aligned hmarked)
  exact hregistered.aligned { Aligned.refl _ with }

theorem updateInstance_indexed {write : ServiceInstance → ServiceInstance} {stale : RegistryError} (h : r.Indexed) (op : Op)
    (hop : op.updates = some (k, write)) : (r.updateInstance k write stale env).2.Indexed := by
  apply updateInstance_rule (P := fun o => o.2.Indexed)
  case rejected => exact fun _ _ => h
  case unknown => exact fun _ _ _ => h
  case superseded => exact fun _ _ _ _ => h.aligned { Aligned.refl r with }
  case updated =>
    intro _ inst hi _
    have hsame : indexFields (r.reclassify_lifecycle (write inst)) = indexFields inst := by
      cases op <;> simp only [Op.updates, reduceCtorEq, Option.some.injEq, Prod.mk.injEq] at hop
      all_goals
        obtain ⟨rfl, rfl⟩ := hop
        rfl
    have hreplaced := Aligned.replace hi (r.reclassify_lifecycle (write inst)) hsame
    exact h.aligned { hreplaced with }

theorem update_reachability_indexed {eid : EndpointId} {rc : Enum Reachability} (h : r.Indexed) :
    (r.update_reachability eid rc env).2.Indexed := by
  apply update_reachability_rule (P := fun o => o.2.Indexed)
  case rejected => exact fun _ _ => h
  case unknown => exact fun _ _ _ => h
  case stale => exact fun _ _ _ _ _ => h.aligned { Aligned.refl r with }
  case updated =>
    intro _ ep _ _
    apply reclassifyOwner_rule (P := fun u => u.commit_registry_generation.Indexed)
    case kept => exact h.aligned { Aligned.refl r with }
    case reclassified =>
      intro _ inst hi
      have hreplaced := Aligned.replace hi
        (reclassify_lifecycle { r with endpoints := r.endpoints.insert eid { ep with reachability := rc } } inst) rfl
      exact h.aligned { hreplaced with }

theorem deregister_indexed {id : ServiceInstanceId} (h : r.Indexed) : (r.deregister id env).2.Indexed := by
  apply deregister_rule (P := fun o => o.2.Indexed)
  case rejected => exact fun _ _ => h
  case unknown => exact fun _ _ => h
  case stale => exact fun _ _ _ _ _ => h.aligned { Aligned.refl r with }
  case retired =>
    intro _ inst hi _
    have hreplaced := Aligned.replace hi { inst with lifecycle := Lifecycle.RETIRED } rfl
    exact h.aligned { hreplaced with }

theorem revoke_aligned (r : Registry) (boot : WorkerBootId) : Aligned r (r.revoke_boot_internal boot) := by
  have hinstances : ∀ k : ServiceInstanceId,
      (r.revoke_boot_internal boot).instances[k]?.map indexFields = r.instances[k]?.map indexFields := by
    intro k
    rcases r.revoke_instances_cases boot k with h | ⟨old, _, _, hold, h⟩
    · rw [h]
    · rw [h, hold]
      rfl
  obtain ⟨_, _, _, _, hw⟩ := revoke_writes r boot
  rw [hw] at hinstances ⊢
  exact { Aligned.refl r with instances := hinstances }

theorem adopt_worker_aligned (r : Registry) (worker : WorkerId) : Aligned r (r.adopt_worker worker).2 := by
  have hboot : Aligned r { r with next_boot := r.next_boot + 1 } := { Aligned.refl r with }
  apply adopt_worker_rule (P := Aligned r)
  case first => exact fun _ => hboot.trans { Aligned.refl _ with }
  case again => exact fun prev _ _ => (hboot.trans (revoke_aligned _ prev)).trans { Aligned.refl _ with }

theorem begin_coordinator_epoch_aligned (r : Registry) : Aligned r r.begin_coordinator_epoch := by
  refine { Aligned.refl r with instances := fun k => ?_ }
  have hinstances : r.begin_coordinator_epoch.instances = r.instances.map fun _ => revalidateInstance := rfl
  rw [hinstances, Std.ExtTreeMap.getElem?_map, Option.map_map]
  congr 1
  funext inst
  unfold Function.comp revalidateInstance
  split_ifs <;> rfl

/-- A call other than `load_from` leaves the indexes as the instances give them. -/
theorem Indexed.exec (h : r.Indexed) (scan : List ServiceInstanceId) (himage : op.class ≠ .image) : (r.exec scan op).2.Indexed := by
  have hw := r.exec_writes scan op
  rcases hc : op.class <;> rw [hc] at hw
  case descriptor => exact descriptor_indexed hc h
  case inst =>
    cases op <;> simp only [Op.class, reduceCtorEq] at hc
    case register_instance inst env => exact register_instance_indexed h
    case supersede old_id inst env => exact supersede_indexed h
    case update_reachability eid rc env => exact update_reachability_indexed h
    case deregister id env => exact deregister_indexed h
    case update_health id v env => exact updateInstance_indexed h (.update_health id v env) rfl
    case update_readiness id v env => exact updateInstance_indexed h (.update_readiness id v env) rfl
    case update_freshness id v env => exact updateInstance_indexed h (.update_freshness id v env) rfl
    case update_instance_reachability id v env => exact updateInstance_indexed h (.update_instance_reachability id v env) rfl
  case lease | tombstone =>
    obtain ⟨_, _, _, _, hw, -⟩ := hw
    rw [hw]
    exact h.aligned { Aligned.refl r with }
  case note =>
    obtain ⟨_, _, _, hw, -⟩ := hw
    rw [hw]
    exact h.aligned { Aligned.refl r with }
  case incarnation =>
    cases op <;> simp only [Op.class, reduceCtorEq] at hc
    case begin_coordinator_epoch => exact h.aligned r.begin_coordinator_epoch_aligned
    case adopt_worker worker => exact h.aligned (r.adopt_worker_aligned worker)
    case mark_worker_died boot => exact h.aligned (r.revoke_aligned boot)
  case image => exact absurd hc himage

/-! ## The references -/

theorem exec_services_kept (scan : List ServiceInstanceId) (himage : op.class ≠ .image) :
    ∀ sid ∈ r.services, sid ∈ (r.exec scan op).2.services := by
  intro sid hsid
  rcases r.exec_services scan himage with h | ⟨_, _, _, _, _, _, _, h⟩
  · rwa [h]
  · rw [h]
    exact mem_insert_of_mem sid hsid

theorem Enrolls.service_stored (h : r.Enrolls e inst) (hs : Step r e t) : inst.service_id ∈ r.services := by
  obtain ⟨hnew, hreply, hrepeat⟩ := h
  obtain ⟨hreg, _⟩ := registration_checked hs hnew hreply
  have hservice : inst.service_id ∈ (e.op.checkedIn r).services := (hreg.resolve_left hrepeat).1
  unfold Op.checkedIn at hservice
  split at hservice
  · split at hservice <;> exact hservice
  · exact hservice

/-- The service and the endpoints of a stored instance are stored after the call as before. -/
theorem references_kept (h : All (fun _ inst => r.Referenced inst) r.instances) (hs : Step r e t) (himage : e.op.class ≠ .image)
    (hi : t.instances[k]? = some inst) : inst.service_id ∈ t.services ∧ ∀ eid ∈ inst.endpoints, eid ∈ t.endpoints := by
  have hbefore : inst.service_id ∈ r.services ∧ ∀ eid ∈ inst.endpoints, eid ∈ r.endpoints := by
    rcases instance_origin hs himage hi with ⟨old, hold, hsame⟩ | ⟨new, henrolls, _, hsame⟩
    · rw [hsame.service_id, hsame.endpoints]
      exact ⟨(h k old hold).service, (h k old hold).endpoints⟩
    · rw [hsame.service_id, hsame.endpoints]
      exact ⟨henrolls.service_stored hs, henrolls.endpoints_stored hs⟩
  have hretains : Retains r (r.exec e.scan e.op).2 := exec_retains himage
  rw [hs.state]
  exact ⟨exec_services_kept e.scan himage _ hbefore.1, fun eid heid => hretains.endpoints eid (hbefore.2 eid heid)⟩

/-- An available instance is current and of a live boot after the call, if every one was before. -/
theorem available_kept (h : All (fun _ inst => r.Referenced inst) r.instances) (hs : Step r e t) (himage : e.op.class ≠ .image)
    (hi : t.instances[k]? = some inst) (havailable : inst.lifecycle = Lifecycle.AVAILABLE) :
    t.authority.is_boot_live inst.boot = true ∧ inst.freshness = Freshness.CURRENT := by
  have hclassified : ∀ x, inst = t.reclassify_lifecycle x →
      t.authority.is_boot_live inst.boot = true ∧ inst.freshness = Freshness.CURRENT := by
    rintro x rfl
    have hc := classify_available (Enum.named.inj havailable)
    exact ⟨hc.live, hc.freshness⟩
  by_cases hepoch : e.op = .begin_coordinator_epoch
  · have ht : t.instances = r.instances.map fun _ => revalidateInstance := by
      rw [hs.state, hepoch]
      rfl
    rw [ht, Std.ExtTreeMap.getElem?_map, Option.map_eq_some_iff] at hi
    obtain ⟨old, _, rfl⟩ := hi
    exact absurd havailable (revalidate_not_available old)
  have hchange := r.exec_change e.scan e.op himage k
  rw [← hs.state] at hchange
  cases hchange with
  | kept hk =>
    have hold : r.instances[k]? = some inst := hk.symm.trans hi
    obtain ⟨hlive, hfresh⟩ := (h k inst hold).available havailable
    refine ⟨?_, hfresh⟩
    rw [hs.state]
    refine exec_live hlive himage hepoch fun hkill => ?_
    -- a call that ends the boot leaves the instance stale
    have hdead : (r.exec e.scan e.op).2.instances[k]? = some (deadInstance inst) := exec_dead hkill hlive hold
    rw [← hs.state, hi] at hdead
    rw [Option.some.inj hdead] at havailable
    cases havailable
  | updated write old _ _ _ hk => exact hclassified _ (Option.some.inj (hi.symm.trans hk))
  | refreshed old _ _ hk => exact hclassified _ (Option.some.inj (hi.symm.trans hk))
  | stored new _ _ _ hk => exact hclassified _ (Option.some.inj (hi.symm.trans hk))
  | superseded old _ _ hk =>
    obtain rfl := Option.some.inj (hi.symm.trans hk)
    cases havailable
  | retired _ old _ _ _ hk =>
    obtain rfl := Option.some.inj (hi.symm.trans hk)
    cases havailable
  | dead old _ _ _ hk =>
    obtain rfl := Option.some.inj (hi.symm.trans hk)
    cases havailable
  | revalidated old hop _ _ => exact absurd hop hepoch

/-! ## Consistency -/

/-- The indexes are the ones that the instances give, and the references of every
instance are in order. -/
structure Consistent (r : Registry) : Prop where
  indexed : r.Indexed
  referenced : All (fun _ inst => r.Referenced inst) r.instances

theorem Consistent.noViolations (h : r.Consistent) (hkey : wellKeyed.Holds r) : r.NoViolations :=
  (noViolations_iff h.indexed hkey).2 h.referenced

theorem fresh_consistent : fresh.Consistent where
  indexed := rebuild_indexes_idem _
  referenced k inst hi := by
    simp [fresh_instances] at hi

/-- Every call but `load_from` keeps the registry consistent. -/
theorem Consistent.step (h : r.Consistent) (hs : Step r e t) (himage : e.op.class ≠ .image) : t.Consistent where
  indexed := by
    rw [hs.state]
    exact h.indexed.exec e.scan himage
  referenced k inst hi := by
    obtain ⟨hservice, hendpoints⟩ := references_kept h.referenced hs himage hi
    exact ⟨hservice, hendpoints, available_kept h.referenced hs himage hi⟩

/-- A recovered registry is consistent if its records are. -/
theorem Consistent.recovered_iff (hkey : wellKeyed.Holds r.recovered) : r.recovered.Consistent ↔
    All (fun _ inst => inst.service_id ∈ r.services) r.instances ∧
      All (fun _ inst => ∀ eid ∈ inst.endpoints, eid ∈ r.endpoints) r.instances := by
  rw [← recovered_noViolations_iff hkey, noViolations_iff r.rebuild_indexes_recovered hkey]
  exact ⟨fun h => h.referenced, fun h => ⟨r.rebuild_indexes_recovered, h⟩⟩

/-! ## Every run -/

/-- The states that calls lead to from a new registry where every image that is loaded was
taken in such a state, of a registry without a length that is cut. -/
inductive Restorable : Registry → Prop
  | fresh : Restorable fresh
  | call {r t : Registry} {e : Event} (hr : Restorable r) (hs : Step r e t) (hload : e.noLoad) : Restorable t
  | load {r t u : Registry} {e : Event} (hr : Restorable r) (hu : Restorable u) (hcut : u.Uncut) (hs : Step r e t)
      (hop : e.op = .load_from u.serialize) (hok : (r.load_from u.serialize).Returns) : Restorable t

theorem Restorable.reachable (h : Restorable r) : r.Reachable := by
  induction h with
  | fresh => exact .refl _
  | call hr hs hload ih => exact ih.run (.cons hs (.nil _))
  | load hr hu hcut hs hop hok ih _ => exact ih.run (.cons hs (.nil _))

theorem Restorable.consistent (h : Restorable r) : r.Consistent := by
  induction h with
  | fresh => exact fresh_consistent
  | @call r t e hr hs hload ih =>
    refine ih.step hs fun hclass => ?_
    cases hop : e.op <;> simp [hop, Op.class] at hclass
    exact hload _ hop
  | @load r t u e hr hu hcut hs hop hok _ ih =>
    -- the image was taken of `u`, and it was accepted
    have ht : t = u.recovered := by
      rw [hs.state, hop, exec, Outcome.map_snd, (load_from_uncut (wellKeyed_reachable hu.reachable) hcut hok).1]
    have hkey : wellKeyed.Holds u.recovered := by
      rw [← ht]
      exact wellKeyed_reachable (hr.reachable.run (.cons hs (.nil _)))
    rw [ht, Consistent.recovered_iff hkey]
    exact ⟨fun k inst hi => (ih.referenced k inst hi).service,
      fun k inst hi => (ih.referenced k inst hi).endpoints⟩

/-- In every run, restarts from images of it included, `check_invariants` finds nothing,
and each index is the one that the records give. -/
theorem consistent_restored (h : Restorable r) : r.NoViolations ∧ r.Indexed :=
  ⟨h.consistent.noViolations (wellKeyed_reachable h.reachable), h.consistent.indexed⟩

theorem consistent_restored_sample : Sample.registry.recovered.NoViolations ∧ Sample.registry.recovered.Indexed := by
  have hsample : Restorable Sample.registry :=
    Sample.registry_reachable.inv Restorable .fresh fun _ _ _ hs hst => .call hs hst.1 hst.2
  have hload : fresh.load_from Sample.registry.serialize = (.ok (), Sample.registry.recovered) := by
    rw [load_from_serialize_restore sample_readable, restore_withRecords]
  have hstep : Step fresh ⟨.load_from Sample.registry.serialize, fresh.instances.keys, .ok .done⟩ Sample.registry.recovered :=
    ⟨.refl _, by rw [exec, hload]; rfl⟩
  exact consistent_restored (.load .fresh hsample sample_uncut hstep rfl (by rw [hload]; exact Outcome.returns_ok _ _))

end Registry

end RuntimeRegistry
