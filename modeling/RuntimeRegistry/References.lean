import RuntimeRegistry.Available
import RuntimeRegistry.Generations
import RuntimeRegistry.Healing
import RuntimeRegistry.Leases
/-!
# What an instance refers to

A registration looks up the service and the endpoints that its instance names, but
not its capabilities, its protocols and its lease. No call but `load_from` takes a key
out of a table, so a record that was stored when an instance came to refer to it stays
stored.
-/
open Lib

namespace RuntimeRegistry

namespace Registry

variable {r s t : Registry} {env : AuthorityEnvelope} {scan : List ServiceInstanceId} {op : Op} {e : Event}
  {inst inst' : ServiceInstance} {k : ServiceInstanceId}

/-! ## References -/

/-- The records that a registration does not look up are stored. -/
structure RefersUnchecked (r : Registry) (inst : ServiceInstance) : Prop where
  capabilities : ∀ cid ∈ inst.capabilities, cid ∈ r.capabilities
  protocols : ∀ pid ∈ inst.protocols, pid ∈ r.protocols
  lease : inst.lease.value ≠ 0 → inst.lease ∈ r.leases

/-- Every record that the instance lists is stored. -/
structure RefersStored (r : Registry) (inst : ServiceInstance) : Prop extends r.RefersUnchecked inst where
  endpoints : ∀ eid ∈ inst.endpoints, eid ∈ r.endpoints

/-- Stored instances refer to stored records only. -/
def ReferencesStored (r : Registry) : Prop :=
  ∀ (id : ServiceInstanceId) (inst : ServiceInstance), r.instances[id]? = some inst → r.RefersStored inst

/-- The two instances agree on what only a registration writes. -/
structure Unedited (inst inst' : ServiceInstance) : Prop where
  service_id : inst'.service_id = inst.service_id
  instance_generation : inst'.instance_generation = inst.instance_generation
  capabilities : inst'.capabilities = inst.capabilities
  protocols : inst'.protocols = inst.protocols
  endpoints : inst'.endpoints = inst.endpoints
  lease : inst'.lease = inst.lease

theorem RefersStored.congr (h : r.RefersStored inst) (hs : Unedited inst inst') : r.RefersStored inst' where
  capabilities := hs.capabilities ▸ h.capabilities
  protocols := hs.protocols ▸ h.protocols
  endpoints := hs.endpoints ▸ h.endpoints
  lease := hs.lease ▸ h.lease

theorem revalidateInstance_unedited (inst : ServiceInstance) : Unedited inst (revalidateInstance inst) := by
  unfold revalidateInstance
  dsimp only
  split_ifs <;> exact ⟨rfl, rfl, rfl, rfl, rfl, rfl⟩

theorem updates_unedited {write : ServiceInstance → ServiceInstance} (hop : op.updates = some (k, write))
    (inst : ServiceInstance) : Unedited inst (write inst) := by
  cases op <;> simp only [Op.updates, reduceCtorEq, Option.some.injEq, Prod.mk.injEq] at hop
  all_goals
    obtain ⟨rfl, rfl⟩ := hop
    exact ⟨rfl, rfl, rfl, rfl, rfl, rfl⟩

/-- A stored instance was stored before the call, or the call enrolls it. -/
theorem instance_origin (hs : Step r e t) (himage : e.op.class ≠ .image) (hi : t.instances[k]? = some inst) :
    (∃ old, r.instances[k]? = some old ∧ Unedited old inst) ∨
      ∃ new, r.Enrolls e new ∧ k = r.assignedId new ∧ Unedited new inst := by
  have hstored : ∀ {x}, t.instances[k]? = some x → x = inst := fun h => Option.some.inj (h.symm.trans hi)
  have hchange := r.exec_change e.scan e.op himage k
  rw [← hs.state] at hchange
  cases hchange with
  | kept h => exact .inl ⟨inst, h.symm.trans hi, rfl, rfl, rfl, rfl, rfl, rfl⟩
  | updated write old hop _ hold h =>
    obtain rfl := hstored h
    obtain ⟨h₁, h₂, h₃, h₄, h₅, h₆⟩ := updates_unedited hop old
    exact .inl ⟨old, hold, h₁, h₂, h₃, h₄, h₅, h₆⟩
  | refreshed old _ hold h =>
    obtain rfl := hstored h
    exact .inl ⟨old, hold, rfl, rfl, rfl, rfl, rfl, rfl⟩
  | stored new hop _ _ h =>
    rcases classified_enrolls hs hop h with ⟨henrolls, hid⟩ | hkept
    · obtain rfl := hstored h
      exact .inr ⟨new, henrolls, hid, rfl, rfl, rfl, rfl, rfl, rfl⟩
    · exact .inl ⟨inst, hkept.symm.trans hi, rfl, rfl, rfl, rfl, rfl, rfl⟩
  | superseded old hold _ h =>
    obtain rfl := hstored h
    exact .inl ⟨old, hold, rfl, rfl, rfl, rfl, rfl, rfl⟩
  | retired _ old _ _ hold h =>
    obtain rfl := hstored h
    exact .inl ⟨old, hold, rfl, rfl, rfl, rfl, rfl, rfl⟩
  | dead old _ _ hold h =>
    obtain rfl := hstored h
    exact .inl ⟨old, hold, rfl, rfl, rfl, rfl, rfl, rfl⟩
  | revalidated old _ hold h =>
    obtain rfl := hstored h
    exact .inl ⟨old, hold, revalidateInstance_unedited old⟩

/-! ## Keys -/

/-- No key that an instance may refer to is gone. -/
structure Retains (r t : Registry) : Prop where
  capabilities : ∀ cid ∈ r.capabilities, cid ∈ t.capabilities
  protocols : ∀ pid ∈ r.protocols, pid ∈ t.protocols
  endpoints : ∀ eid ∈ r.endpoints, eid ∈ t.endpoints
  leases : ∀ l ∈ r.leases, l ∈ t.leases

theorem Retains.refl (r : Registry) : Retains r r := ⟨fun _ h => h, fun _ h => h, fun _ h => h, fun _ h => h⟩

theorem Retains.trans (h : Retains r s) (h' : Retains s t) : Retains r t where
  capabilities _ hk := h'.capabilities _ (h.capabilities _ hk)
  protocols _ hk := h'.protocols _ (h.protocols _ hk)
  endpoints _ hk := h'.endpoints _ (h.endpoints _ hk)
  leases _ hk := h'.leases _ (h.leases _ hk)

theorem RefersUnchecked.retained (h : r.RefersUnchecked inst) (hr : Retains r t) : t.RefersUnchecked inst where
  capabilities cid hc := hr.capabilities cid (h.capabilities cid hc)
  protocols pid hp := hr.protocols pid (h.protocols pid hp)
  lease hl := hr.leases _ (h.lease hl)

theorem RefersStored.retained (h : r.RefersStored inst) (hr : Retains r t) : t.RefersStored inst where
  toRefersUnchecked := h.toRefersUnchecked.retained hr
  endpoints eid he := hr.endpoints eid (h.endpoints eid he)

theorem mem_insert_of_mem {tag : IdTag} {ρ : Type} {m : Map tag ρ} {k : Id tag} {x : ρ} :
    ∀ i ∈ m, i ∈ m.insert k x := fun _ h => Std.ExtTreeMap.mem_insert.2 (.inr h)

theorem descriptor_retains (hc : op.class = .descriptor) : Retains r (r.exec scan op).2 := by
  have hservice : ∀ x s, Retains s (services_.commit x s).2 := by
    intro x s
    obtain ⟨_, _, _, _, h⟩ := rebuild_indexes_writes
      { s with authority := services_.raise (services_.generation x) s.authority }.commit_registry_generation
    have hcommit : (services_.commit x s).2 = _ := h
    rw [hcommit]
    exact { Retains.refl s with }
  refine descriptor_rel hc (fun s _ _ => { Retains.refl s with }) (fun _ _ _ => .trans) fun h => ?_
  cases h
  case service =>
    refine ⟨fun current y s => .trans (s := services_.replace current y s) { Retains.refl s with } (hservice y _), fun y s => ?_⟩
    exact .trans (s := services_.insert y s) { Retains.refl s with } (hservice y _)
  case endpoint =>
    exact ⟨fun _ _ s => { Retains.refl s with endpoints := mem_insert_of_mem },
      fun _ s => { Retains.refl s with endpoints := mem_insert_of_mem }⟩
  case capability =>
    exact ⟨fun _ _ s => { Retains.refl s with capabilities := mem_insert_of_mem },
      fun _ s => { Retains.refl s with capabilities := mem_insert_of_mem }⟩
  case protocol =>
    exact ⟨fun _ _ s => { Retains.refl s with protocols := mem_insert_of_mem },
      fun _ s => { Retains.refl s with protocols := mem_insert_of_mem }⟩
  all_goals exact ⟨fun _ _ s => { Retains.refl s with }, fun _ s => { Retains.refl s with }⟩

theorem mem_of_getElem? {tag : IdTag} {ρ : Type} {m : Map tag ρ} {k : Id tag} {x : ρ} (h : m[k]? = some x) : k ∈ m :=
  Std.ExtTreeMap.mem_iff_isSome_getElem?.2 (Option.isSome_iff_exists.2 ⟨x, h⟩)

theorem exec_leases_kept (himage : op.class ≠ .image) : ∀ l ∈ r.leases, l ∈ (r.exec scan op).2.leases := by
  intro l hl
  cases r.exec_lease_change scan op himage l with
  | kept h =>
    rw [Std.ExtTreeMap.mem_iff_isSome_getElem?] at hl ⊢
    rwa [h]
  | acquired _ _ _ _ _ h | renewed _ _ _ _ h | expired _ _ _ _ _ _ h | revoked _ _ _ _ _ _ h | marked _ _ _ _ h
  | dead _ _ _ _ _ h | revalidated _ _ _ h => exact mem_of_getElem? h

/-- No call but `load_from` takes a key out. -/
theorem exec_retains (himage : op.class ≠ .image) : Retains r (r.exec scan op).2 := by
  by_cases hc : op.class = .descriptor
  · exact descriptor_retains hc
  · have hmem : ∀ {tag : IdTag} {gen : GenTag} {ρ : Type} {generation : ρ → Gen gen} {m m' : Map tag ρ},
        Table.Grows generation m m' → ∀ k ∈ m, k ∈ m' := by
      intro tag gen ρ generation m m' h k hk
      obtain ⟨x, hx⟩ := Option.isSome_iff_exists.1 (Std.ExtTreeMap.mem_iff_isSome_getElem?.1 hk)
      obtain ⟨y, hy, _⟩ := h k x hx
      exact mem_of_getElem? hy
    have h : r.Advances (r.exec scan op).2 := other_advances hc himage
    exact ⟨hmem h.capabilities, hmem h.protocols, hmem h.endpoints, exec_leases_kept himage⟩

/-! ## Enrolled instances -/

/-- The endpoints of an enrolled instance are stored: the registration claims them. -/
theorem Enrolls.endpoints_stored (h : r.Enrolls e inst) (hs : Step r e t) : ∀ eid ∈ inst.endpoints, eid ∈ r.endpoints := by
  obtain ⟨hnew, hreply, hrepeat⟩ := h
  obtain ⟨hreg, _⟩ := registration_checked hs hnew hreply
  have hclaimable := (hreg.resolve_left hrepeat).opens.2
  have hsame : ((e.op.checkedIn r).superseding e.scan inst).endpoints = r.endpoints := by
    refine (superseding_evidence _ _ _).endpoints.trans ?_
    unfold Op.checkedIn
    split
    · split <;> rfl
    · rfl
  intro eid heid
  have h := hclaimable eid heid
  unfold claimable at h
  rw [hsame] at h
  rcases hep : r.endpoints[eid]? with _ | ep
  · rw [hep] at h
    cases h
  · exact mem_of_getElem? hep

/-- A registration writes none of the tables that it does not look up. -/
theorem Enrolls.unchecked (h : r.Enrolls e inst) (hs : Step r e t) (hi : t.RefersUnchecked inst) : r.RefersUnchecked inst := by
  have hclass := (newInstance_call h.1).1
  have himage : e.op.class ≠ .image := by
    rw [hclass]
    decide
  have hleases : (r.exec e.scan e.op).2.leases = r.leases :=
    (r.exec_frame e.scan himage).leases (by rw [hclass]; decide) (by rw [hclass]; decide)
  have hw := r.exec_writes e.scan e.op
  rw [hclass] at hw
  obtain ⟨_, _, _, _, _, _, _, _, _, _, _, _, hw⟩ := hw
  rw [hs.state] at hi
  rw [hw] at hi hleases
  exact ⟨hi.capabilities, hi.protocols, fun hl => hleases ▸ hi.lease hl⟩

/-- A call other than `load_from` leaves stored instances that refer to stored records if
and only if what it enrolls does so where it is not looked up. -/
theorem referencesStored_step_iff (h : r.ReferencesStored) (hs : Step r e t) (himage : e.op.class ≠ .image) :
    t.ReferencesStored ↔ ∀ inst, r.Enrolls e inst → r.RefersUnchecked inst := by
  have hretains : Retains r t := by
    rw [hs.state]
    exact exec_retains himage
  constructor
  · intro ht inst henrolls
    have hstored := ht _ _ (henrolls.stored hs)
    exact henrolls.unchecked hs ⟨hstored.capabilities, hstored.protocols, hstored.lease⟩
  · intro hchecked k inst hi
    rcases instance_origin hs himage hi with ⟨old, hold, hsame⟩ | ⟨new, henrolls, _, hsame⟩
    · exact ((h k old hold).retained hretains).congr hsame
    · have hnew : r.RefersStored new := ⟨hchecked new henrolls, henrolls.endpoints_stored hs⟩
      exact (hnew.retained hretains).congr hsame

/-! ## Images -/

theorem ReferencesStored.withRecords (h : s.ReferencesStored) (r : Registry) : (s.withRecords r).ReferencesStored :=
  fun k inst hi => ⟨⟨(h k inst hi).capabilities, (h k inst hi).protocols, (h k inst hi).lease⟩, (h k inst hi).endpoints⟩

/-- Recovery changes no reference and no key. -/
theorem ReferencesStored.restore (h : r.ReferencesStored) (header : Header) : (restore header r).ReferencesStored := by
  obtain ⟨_, _, _, _, hw⟩ := rebuild_indexes_writes { r with
    authority := header.authority, next_boot := header.next_boot, next_id := header.next_id
    instances := r.instances.map fun _ => recoverInstance, endpoints := r.endpoints.map fun _ => recoverEndpoint
    capabilities := r.capabilities.map fun _ => recoverCapability, leases := r.leases.map fun _ => recoverLease }
  have hretains : Retains r (Registry.restore header r) := by
    unfold Registry.restore
    dsimp only
    rw [hw]
    exact ⟨fun _ => Std.ExtTreeMap.mem_map.2, fun _ hk => hk, fun _ => Std.ExtTreeMap.mem_map.2,
      fun _ => Std.ExtTreeMap.mem_map.2⟩
  intro k inst hi
  rw [restore_instances, Std.ExtTreeMap.getElem?_map, Option.map_eq_some_iff] at hi
  obtain ⟨old, hold, rfl⟩ := hi
  exact ((h k old hold).retained hretains).congr (revalidateInstance_unedited old)

/-! ## Runs -/

/-- What the call enrolls refers to stored records also where it is not looked up, and
the instances that it reads from an image refer to records that it reads. -/
structure KeepsReferences (r : Registry) (e : Event) : Prop where
  enrolled : ∀ inst, r.Enrolls e inst → r.RefersUnchecked inst
  image : ∀ data, e.op = .load_from data → Admitted data → (imageRecords data).2.ReferencesStored

theorem ReferencesStored.step (h : r.ReferencesStored) (hs : Step r e t) (hk : r.KeepsReferences e) :
    t.ReferencesStored := by
  by_cases himage : e.op.class = .image
  · obtain ⟨data, hop⟩ := Op.eq_load_from himage
    rw [hs.state, hop]
    apply load_from_rule (P := ReferencesStored)
    case refused => exact fun _ => h
    case broken => exact fun ha _ => (hk.image data hop ha).withRecords r
    case restored => exact fun ha _ => ((hk.image data hop ha).withRecords r).restore _
  · exact (referencesStored_step_iff h hs himage).2 hk.enrolled

/-- In every run whose calls enroll no instance with a capability, a protocol or a lease
that is not stored, stored instances refer to stored records only. -/
theorem references_stored (h : Lib.Reachable (Guarded Step KeepsReferences) fresh r) : r.ReferencesStored := by
  have hfresh : fresh.ReferencesStored := by
    have hnone : fresh.instances = ∅ := Std.ExtTreeMap.isEmpty_iff.1 (by decide +kernel)
    intro k inst hi
    rw [hnone] at hi
    cases Std.ExtTreeMap.getElem?_empty.symm.trans hi
  exact h.inv ReferencesStored hfresh fun _ _ _ hr hst => hr.step hst.1 hst.2

end Registry

namespace Sample

/-- An instance that lists a capability, a protocol and a lease. -/
def referring : ServiceInstance := { incarnation 5 1 with capabilities := [⟨7⟩], protocols := [⟨8⟩], lease := ⟨9⟩ }

/-- What the instance lists, registered before it. -/
def referred : List Op := leasing ++ [
  .register_capability { capability_id := ⟨7⟩, generation := ⟨1⟩ } env,
  .register_protocol { protocol_id := ⟨8⟩, generation := ⟨1⟩ } env,
  .register_instance referring env]

end Sample

namespace Registry

theorem references_stored_sample : (fresh.after Sample.referred).ReferencesStored := by
  have hother : ∀ (s : Registry) op, op.newInstance = none → op.class ≠ .image → s.KeepsReferences (s.call op) := by
    refine fun s op hnew himage => ⟨fun inst hin => ?_, fun data hop => ?_⟩
    · cases hnew.symm.trans hin.1
    · have hload : op = .load_from data := hop
      exact absurd (congrArg Op.class hload) himage
  have hlast : ∀ s : Registry, s.RefersUnchecked Sample.referring →
      s.KeepsReferences (s.call (.register_instance Sample.referring Sample.env)) := by
    refine fun s hs => ⟨fun inst hin => ?_, fun data hop => ?_⟩
    · obtain rfl : Sample.referring = inst := Option.some.inj hin.1
      exact hs
    · cases hop
  have hmeets : Meets (fun r op => r.KeepsReferences (r.call op)) fresh Sample.referred :=
    ⟨hother _ _ rfl (by decide), hother _ _ rfl (by decide), hother _ _ rfl (by decide), hother _ _ rfl (by decide),
      hother _ _ rfl (by decide), hlast _ ⟨by decide +kernel, by decide +kernel, by decide +kernel⟩, trivial⟩
  exact references_stored hmeets.calls

/-- The instance is registered where none of what it lists is. -/
theorem references_dangle :
    let r := fresh.after [.adopt_worker ⟨1⟩, .register_service Sample.service Sample.env,
      .register_instance Sample.referring Sample.env]
    r.ReachableWithoutLoad ∧ (∃ inst, r.instances[(⟨5⟩ : ServiceInstanceId)]? = some inst) ∧
      r.capabilities.size = 0 ∧ r.protocols.size = 0 ∧ r.leases.size = 0 ∧ ¬ r.ReferencesStored := by
  intro r
  have hstored : ∃ inst ∈ r.instances[(⟨5⟩ : ServiceInstanceId)]?, (⟨7⟩ : CapabilityId) ∈ inst.capabilities ∧
      (⟨7⟩ : CapabilityId) ∉ r.capabilities := by decide +kernel
  obtain ⟨inst, hi, hlists, hnone⟩ := hstored
  refine ⟨ReachableWithoutLoad.after (.refl _) (by simp), ⟨inst, hi⟩, by decide +kernel, by decide +kernel,
    by decide +kernel, fun h => ?_⟩
  exact hnone ((h _ _ hi).capabilities _ hlists)

end Registry

end RuntimeRegistry
