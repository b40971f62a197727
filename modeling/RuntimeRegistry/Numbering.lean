import RuntimeRegistry.Leases
/-!
# What a call does to the ids

Eight kinds of records share one counter, and a caller may bring an id of its own
as well. A call other than `load_from` leaves the ids and the counter, or stores one
record under the id it brings, or takes the next id.
-/
open Lib

namespace RuntimeRegistry

/-- The kinds of records that the counter numbers. -/
inductive Numbered
  | runtime | endpoint | capability | backend | device | inst | lease | tombstone

/-- The map of the kind holds the id. -/
def Numbered.Holds (r : Registry) (v : UInt64) : Numbered → Prop
  | .runtime => (⟨v⟩ : RuntimeInstanceId) ∈ r.runtime_instances
  | .endpoint => (⟨v⟩ : EndpointId) ∈ r.endpoints
  | .capability => (⟨v⟩ : CapabilityId) ∈ r.capabilities
  | .backend => (⟨v⟩ : BackendId) ∈ r.backends
  | .device => (⟨v⟩ : DeviceId) ∈ r.devices
  | .inst => (⟨v⟩ : ServiceInstanceId) ∈ r.instances
  | .lease => (⟨v⟩ : LeaseId) ∈ r.leases
  | .tombstone => (⟨v⟩ : TombstoneId) ∈ r.tombstones

/-- The kind of record that the call stores and the id it brings, where 0 asks for one. -/
def Op.names : Op → Option (Numbered × UInt64)
  | .register_runtime rt _ => some (.runtime, rt.runtime_instance.value)
  | .register_endpoint ep _ => some (.endpoint, ep.endpoint_id.value)
  | .register_capability cap _ => some (.capability, cap.capability_id.value)
  | .register_backend bd _ => some (.backend, bd.backend_id.value)
  | .register_device dd _ => some (.device, dd.device_id.value)
  | .register_instance inst _ | .supersede _ inst _ => some (.inst, inst.instance_id.value)
  | .acquire_lease lease _ => some (.lease, lease.lease_id.value)
  | .create_tombstone tomb _ => some (.tombstone, tomb.tombstone_id.value)
  | _ => none

namespace Registry

variable {r s t : Registry} {env : AuthorityEnvelope} {scan : List ServiceInstanceId} {inst : ServiceInstance}

/-! ## What a call adds to the maps -/

/-- No map holds an id that it did not, and the counter stands where it stood. -/
structure SameIds (r t : Registry) : Prop where
  holds : ∀ K v, Numbered.Holds t v K → Numbered.Holds r v K
  next_id : t.next_id = r.next_id

/-- At most the id `v` of the kind is new. -/
structure Places (K : Numbered) (v : UInt64) (r t : Registry) : Prop where
  holds : ∀ K' v', Numbered.Holds t v' K' → Numbered.Holds r v' K' ∨ K' = K ∧ v' = v
  next_id : t.next_id = r.next_id

/-- What a call can do to the ids: nothing, store a record under the id it brings, or
take the next one. -/
inductive Numbers (op : Op) (r t : Registry) : Prop
  | kept (h : SameIds r t)
  | named (K : Numbered) (v : UInt64) (hop : op.names = some (K, v)) (hv : v ≠ 0) (h : Places K v r t)
  | assigned (K : Numbered) (hop : op.names = some (K, 0))
      (h : Places K r.next_id { r with next_id := r.next_id + 1 } t)

theorem SameIds.refl (r : Registry) : SameIds r r := ⟨fun _ _ h => h, rfl⟩

theorem SameIds.trans (h : SameIds r s) (h' : SameIds s t) : SameIds r t :=
  ⟨fun K v hv => h.holds K v (h'.holds K v hv), h'.next_id.trans h.next_id⟩

/-- A write that touches none of the maps. -/
theorem SameIds.write (hw : ∀ K v, Numbered.Holds t v K = Numbered.Holds r v K) (hn : t.next_id = r.next_id) :
    SameIds r t := ⟨fun K v h => hw K v ▸ h, hn⟩

theorem SameIds.rebuild_indexes (h : SameIds r t) : SameIds r t.rebuild_indexes := by
  obtain ⟨_, _, _, _, he⟩ := rebuild_indexes_writes t
  rw [he]
  exact h.trans (.write (fun K _ => by cases K <;> rfl) rfl)

/-- A record stored where one stood adds no id. -/
theorem Places.same {K : Numbered} {v : UInt64} (h : Places K v r t) (hv : Numbered.Holds r v K) : SameIds r t := by
  refine ⟨fun K' v' hheld => ?_, h.next_id⟩
  rcases h.holds K' v' hheld with hr | ⟨rfl, rfl⟩
  · exact hr
  · exact hv

theorem holds_insert {tag : IdTag} {ρ : Type} {m : Map tag ρ} {k : Id tag} {x : ρ} {v : UInt64}
    (h : (⟨v⟩ : Id tag) ∈ m.insert k x) : ⟨v⟩ ∈ m ∨ v = k.value := by
  rw [Std.ExtTreeMap.mem_insert] at h
  rcases h with h | h
  · exact .inr (by rw [show k = ⟨v⟩ by simpa using h])
  · exact .inl h

theorem holds_of_getElem? {tag : IdTag} {ρ : Type} {m : Map tag ρ} {k : Id tag} {x : ρ} (h : m[k]? = some x) : k ∈ m := by
  rw [Std.ExtTreeMap.mem_iff_isSome_getElem?, h]
  rfl

theorem exists_of_holds {tag : IdTag} {ρ : Type} {m : Map tag ρ} {k : Id tag} (h : k ∈ m) : ∃ x, m[k]? = some x :=
  Option.isSome_iff_exists.1 (Std.ExtTreeMap.mem_iff_isSome_getElem?.1 h)

/-! ## Descriptors -/

section
variable {tag : IdTag} {gen : GenTag} {ρ : Type}

theorem registerRecord_same {D : Domain tag gen ρ} {x : ρ} (hid : D.withId = none)
    (hreplace : ∀ current, SameIds r (D.commit x (D.replace current x r)).2)
    (hinsert : SameIds r (D.commit x (D.insert x r)).2) : SameIds r (registerRecord D r x env).2 := by
  apply registerRecord_rule D (P := fun o => SameIds r o.2)
  case rejected => exact fun _ _ => .refl r
  case repeated => exact fun _ _ _ _ _ => .refl r
  case stale => exact fun _ _ _ _ => .write (fun K _ => by cases K <;> rfl) rfl
  case replaced => exact fun _ current _ _ => hreplace current
  case fenced => exact fun _ _ _ _ => .write (fun K _ => by cases K <;> rfl) rfl
  case inserted =>
    intro _ _ _
    rwa [show D.assign x r = (x, r) by rw [Domain.assign, hid]]

/-- A domain that assigns ids stores under the id of the record or the next one. -/
theorem registerRecord_numbers {D : Domain tag gen ρ} {K : Numbered} {x : ρ} {op : Op} {withId : Id tag → ρ → ρ}
    (hop : op.names = some (K, (D.id x).value)) (hwith : D.withId = some withId)
    (hid : (D.id (withId ⟨r.next_id⟩ x)).value = r.next_id)
    (hholds : ∀ current, (D.table r)[D.id x]? = some current → K.Holds r (D.id x).value)
    (hreplace : ∀ current, Places K (D.id x).value r (D.commit x (D.replace current x r)).2)
    (hinsert : ∀ y s, Places K (D.id y).value s (D.commit y (D.insert y s)).2) :
    Numbers op r (registerRecord D r x env).2 := by
  have hcounted : ∀ accounting, SameIds r { r with accounting := accounting } :=
    fun _ => .write (fun K _ => by cases K <;> rfl) rfl
  apply registerRecord_rule D (P := fun o => Numbers op r o.2)
  case rejected => exact fun _ _ => .kept (.refl r)
  case repeated => exact fun _ _ _ _ _ => .kept (.refl r)
  case stale => exact fun _ _ _ _ => .kept (hcounted _)
  case fenced => exact fun _ _ _ _ => .kept (hcounted _)
  case replaced => exact fun _ current hold _ => .kept ((hreplace current).same (hholds current hold))
  case inserted =>
    intro _ _ _
    refine Domain.assign_rule (P := fun y s => Numbers op r (D.commit y (D.insert y s)).2) D hwith (fun h0 => ?_) fun hne => ?_
    · have hplaces := hinsert (withId ⟨r.next_id⟩ x) { r with next_id := r.next_id + 1 }
      rw [hid] at hplaces
      exact .assigned K (hop.trans (by rw [h0])) hplaces
    · exact .named K _ hop hne (hinsert x r)

end

/-- The registrations of descriptors, and the ids they bring. -/
theorem descriptor_numbers {op : Op} (hc : op.class = .descriptor) : Numbers op r (r.exec scan op).2 := by
  cases op <;> simp only [Op.class, reduceCtorEq] at hc
  case register_service svc env =>
    simp only [exec, Outcome.map_snd, register_service, Outcome.void_snd]
    refine .kept (registerRecord_same rfl (fun _ => ?_) ?_)
    · exact SameIds.rebuild_indexes (.write (fun K _ => by cases K <;> rfl) rfl)
    · exact SameIds.rebuild_indexes (.write (fun K _ => by cases K <;> rfl) rfl)
  case register_protocol x env | register_node x env =>
    simp only [exec, Outcome.map_snd, register_protocol, register_node, Outcome.void_snd]
    refine .kept (registerRecord_same rfl (fun _ => ?_) ?_)
    · exact .write (fun K _ => by cases K <;> rfl) rfl
    · exact .write (fun K _ => by cases K <;> rfl) rfl
  case register_runtime rt env =>
    refine registerRecord_numbers (D := runtimes_) rfl rfl rfl (fun _ h => holds_of_getElem? h) (fun _ => ⟨?_, rfl⟩)
      fun _ _ => ⟨?_, rfl⟩
    all_goals
      rintro (_ | _ | _ | _ | _ | _ | _ | _) v h
      case runtime => exact (holds_insert h).imp id fun hv => ⟨rfl, hv⟩
      all_goals exact .inl h
  case register_endpoint ep env =>
    refine registerRecord_numbers (D := endpoints_) rfl rfl rfl (fun _ h => holds_of_getElem? h) (fun _ => ⟨?_, rfl⟩)
      fun _ _ => ⟨?_, rfl⟩
    all_goals
      rintro (_ | _ | _ | _ | _ | _ | _ | _) v h
      case endpoint => exact (holds_insert h).imp id fun hv => ⟨rfl, hv⟩
      all_goals exact .inl h
  case register_capability cap env =>
    refine registerRecord_numbers (D := capabilities_) rfl rfl rfl (fun _ h => holds_of_getElem? h) (fun _ => ⟨?_, rfl⟩)
      fun _ _ => ⟨?_, rfl⟩
    all_goals
      rintro (_ | _ | _ | _ | _ | _ | _ | _) v h
      case capability => exact (holds_insert h).imp id fun hv => ⟨rfl, hv⟩
      all_goals exact .inl h
  case register_backend bd env =>
    refine registerRecord_numbers (D := backends_) rfl rfl rfl (fun _ h => holds_of_getElem? h) (fun _ => ⟨?_, rfl⟩)
      fun _ _ => ⟨?_, rfl⟩
    all_goals
      rintro (_ | _ | _ | _ | _ | _ | _ | _) v h
      case backend => exact (holds_insert h).imp id fun hv => ⟨rfl, hv⟩
      all_goals exact .inl h
  case register_device dd env =>
    refine registerRecord_numbers (D := devices_) rfl rfl rfl (fun _ h => holds_of_getElem? h) (fun _ => ⟨?_, rfl⟩)
      fun _ _ => ⟨?_, rfl⟩
    all_goals
      rintro (_ | _ | _ | _ | _ | _ | _ | _) v h
      case device => exact (holds_insert h).imp id fun hv => ⟨rfl, hv⟩
      all_goals exact .inl h

/-! ## Instances -/

/-- A call that registers no descriptor adds no id to the endpoints and at most the id
of the instance it registers to the instances. -/
theorem changes_hold {op : Op} (himage : op.class ≠ .image) (hdesc : op.class ≠ .descriptor)
    (hw : ∀ K v, K ≠ Numbered.endpoint → K ≠ Numbered.inst →
      Numbered.Holds (r.exec scan op).2 v K → Numbered.Holds r v K) (K : Numbered) (v : UInt64)
    (h : Numbered.Holds (r.exec scan op).2 v K) :
    Numbered.Holds r v K ∨ K = .inst ∧ ∃ inst, op.newInstance = some inst ∧ v = (r.assignedId inst).value := by
  by_cases hep : K = .endpoint
  · subst hep
    refine .inl ?_
    obtain ⟨ep, hep⟩ := exists_of_holds h
    cases r.exec_endpoint_change scan op himage ⟨v⟩ with
    | kept h' => exact holds_of_getElem? (h'.symm.trans hep)
    | registered _ _ _ hop => exact absurd (by rw [hop]; rfl) hdesc
    | claimed _ _ _ _ _ hold => exact holds_of_getElem? hold
    | updated _ _ _ _ hu => exact holds_of_getElem? hu.2.1
    | released _ _ _ _ hold => exact holds_of_getElem? hold
    | revalidated _ _ hold => exact holds_of_getElem? hold
  by_cases hinst : K = .inst
  · subst hinst
    obtain ⟨x, hx⟩ := exists_of_holds h
    cases r.exec_change scan op himage ⟨v⟩ with
    | kept h' => exact .inl (holds_of_getElem? (h'.symm.trans hx))
    | updated _ _ _ _ hold => exact .inl (holds_of_getElem? hold)
    | refreshed _ _ hold => exact .inl (holds_of_getElem? hold)
    | stored inst hop hid => exact .inr ⟨rfl, inst, hop, congrArg (·.value) hid⟩
    | superseded _ hold => exact .inl (holds_of_getElem? hold)
    | retired _ _ _ _ hold => exact .inl (holds_of_getElem? hold)
    | dead _ _ _ hold => exact .inl (holds_of_getElem? hold)
    | revalidated _ _ hold => exact .inl (holds_of_getElem? hold)
  · exact .inl (hw K v hep hinst h)

/-- What the endpoint loop and the store leave of the counter. -/
theorem bindInstance_next_id (r : Registry) (copy : ServiceInstance) : (r.bindInstance copy).2.next_id = r.next_id := by
  obtain ⟨_, _, hclaims⟩ := claimEndpoints_writes copy.instance_id copy.endpoints r
  apply bindInstance_rule (P := fun o => o.2.next_id = r.next_id)
  case refused =>
    intro e t h
    rw [h] at hclaims
    rw [hclaims]
  case stored =>
    intro t h
    rw [h] at hclaims
    have hkept : t.next_id = r.next_id := by rw [show t = _ from hclaims]
    rw [← hkept]
    unfold storeInstance
    obtain ⟨_, _, _, _, h'⟩ := rebuild_indexes_writes (Registry.commit_registry_generation _)
    rw [h']
    rfl

/-- A registration of an instance adds no id, or leaves the counter behind its own. -/
theorem register_instance_next_id : SameIds r (r.register_instance scan inst env).2 ∨
    (r.register_instance scan inst env).2.next_id = r.assignedNext inst := by
  apply register_instance_rule (P := fun o => SameIds r o.2 ∨ o.2.next_id = r.assignedNext inst)
  case rejected => exact fun _ _ => .inl (.refl r)
  case unregistered => exact fun _ _ _ => .inl (.refl r)
  case repeated => exact fun _ _ _ _ _ _ _ => .inr rfl
  case stale => exact fun _ _ _ _ _ _ _ _ => .inr rfl
  case superseded => exact fun _ _ _ _ _ _ => .inr (bindInstance_next_id _ _)
  case fenced => exact fun _ _ _ _ _ => .inr rfl
  case first => exact fun _ _ _ _ => .inr (bindInstance_next_id _ _)

theorem SameIds.markSuperseded {old_id : ServiceInstanceId} {old : ServiceInstance}
    (hold : r.instances[old_id]? = some old) : SameIds r (r.markSuperseded old_id old) := by
  have hplaces : Places .inst old_id.value r (r.markSuperseded old_id old) := by
    refine ⟨?_, rfl⟩
    rintro (_ | _ | _ | _ | _ | _ | _ | _) v h
    case inst => exact (holds_insert h).imp id fun hv => ⟨rfl, hv⟩
    all_goals exact .inl h
  exact hplaces.same (holds_of_getElem? hold)

theorem supersede_next_id {old_id : ServiceInstanceId} : SameIds r (r.supersede scan old_id inst env).2 ∨
    (r.supersede scan old_id inst env).2.next_id = r.assignedNext inst := by
  refine supersede_state_rule (P := fun t => SameIds r t ∨ t.next_id = r.assignedNext inst) (.inl (.refl r))
    fun _ old hold _ => ?_
  have hregistered : SameIds (r.markSuperseded old_id old)
        ((r.markSuperseded old_id old).register_instance scan inst env).2 ∨
      ((r.markSuperseded old_id old).register_instance scan inst env).2.next_id = r.assignedNext inst :=
    register_instance_next_id
  refine hregistered.imp (fun h => ((SameIds.markSuperseded hold).trans h).trans ?_) id
  exact .write (fun K _ => by cases K <;> rfl) rfl

/-- The id of the instance is all that is new, and the counter stands behind it. -/
theorem numbers_of_assigned {op : Op} (hop : op.names = some (.inst, inst.instance_id.value))
    (hnext : t.next_id = r.assignedNext inst)
    (hholds : ∀ K v, Numbered.Holds t v K → Numbered.Holds r v K ∨ K = .inst ∧ v = (r.assignedId inst).value) :
    Numbers op r t := by
  unfold assignedNext at hnext
  unfold assignedId at hholds
  by_cases h0 : inst.instance_id.value = 0
  · rw [if_pos h0] at hnext hholds
    exact .assigned .inst (hop.trans (by rw [h0])) ⟨fun K v h => (hholds K v h).imp (fun h => by cases K <;> exact h) id, hnext⟩
  · rw [if_neg h0] at hnext hholds
    exact .named .inst _ hop h0 ⟨hholds, hnext⟩

theorem updateInstance_next_id {id : ServiceInstanceId} {write : ServiceInstance → ServiceInstance}
    {stale : RegistryError} : (r.updateInstance id write stale env).2.next_id = r.next_id :=
  updateInstance_rule (P := fun o => o.2.next_id = r.next_id) (fun _ _ => rfl) (fun _ _ _ => rfl) (fun _ _ _ _ => rfl)
    fun _ _ _ _ => rfl

theorem update_reachability_next_id {id : EndpointId} {rc : Enum Reachability} :
    (r.update_reachability id rc env).2.next_id = r.next_id := by
  apply update_reachability_rule (P := fun o => o.2.next_id = r.next_id)
  case rejected => exact fun _ _ => rfl
  case unknown => exact fun _ _ _ => rfl
  case stale => exact fun _ _ _ _ _ => rfl
  case updated =>
    intro _ ep _ _
    exact reclassifyOwner_rule (P := fun u => u.commit_registry_generation.next_id = r.next_id) _ rfl fun _ _ _ => rfl

theorem deregister_next_id {id : ServiceInstanceId} : (r.deregister id env).2.next_id = r.next_id :=
  deregister_rule (P := fun o => o.2.next_id = r.next_id) (fun _ _ => rfl) (fun _ _ => rfl) (fun _ _ _ _ _ => rfl)
    fun _ _ _ _ => rfl

/-- The calls on instances. -/
theorem inst_numbers {op : Op} (hc : op.class = .inst) : Numbers op r (r.exec scan op).2 := by
  have himage : op.class ≠ .image := by rw [hc]; decide
  have hdesc : op.class ≠ .descriptor := by rw [hc]; decide
  have hw := r.exec_writes scan op
  rw [hc] at hw
  have hother : ∀ K v, K ≠ Numbered.endpoint → K ≠ Numbered.inst →
      Numbered.Holds (r.exec scan op).2 v K → Numbered.Holds r v K := by
    intro K v hep hinst h
    obtain ⟨_, _, _, _, _, _, _, _, _, _, _, _, hw⟩ := hw
    rw [hw] at h
    cases K
    case endpoint => exact absurd rfl hep
    case inst => exact absurd rfl hinst
    all_goals exact h
  have hholds : ∀ K v, Numbered.Holds (r.exec scan op).2 v K →
      Numbered.Holds r v K ∨ K = .inst ∧ ∃ inst, op.newInstance = some inst ∧ v = (r.assignedId inst).value :=
    changes_hold himage hdesc hother
  have hsame : op.newInstance = none → (r.exec scan op).2.next_id = r.next_id → Numbers op r (r.exec scan op).2 := by
    refine fun hnew hnext => .kept ⟨fun K v h => (hholds K v h).resolve_right ?_, hnext⟩
    rintro ⟨_, inst, hinst, _⟩
    cases hnew.symm.trans hinst
  have hregisters : ∀ inst, op.newInstance = some inst → op.names = some (.inst, inst.instance_id.value) →
      SameIds r (r.exec scan op).2 ∨ (r.exec scan op).2.next_id = r.assignedNext inst →
      Numbers op r (r.exec scan op).2 := by
    intro inst hnew hop hnext
    rcases hnext with h | hnext
    · exact .kept h
    · refine numbers_of_assigned hop hnext fun K v h => (hholds K v h).imp id ?_
      rintro ⟨hK, inst', hinst', hv⟩
      obtain rfl : inst = inst' := Option.some.inj (hnew.symm.trans hinst')
      exact ⟨hK, hv⟩
  cases op <;> simp only [Op.class, reduceCtorEq] at hc
  case register_instance inst env => exact hregisters inst rfl rfl register_instance_next_id
  case supersede old_id inst env => exact hregisters inst rfl rfl supersede_next_id
  case update_health => exact hsame rfl updateInstance_next_id
  case update_readiness => exact hsame rfl updateInstance_next_id
  case update_freshness => exact hsame rfl updateInstance_next_id
  case update_instance_reachability => exact hsame rfl updateInstance_next_id
  case update_reachability => exact hsame rfl update_reachability_next_id
  case deregister => exact hsame rfl deregister_next_id

/-! ## Leases, tombstones and incarnations -/

/-- Writing a stored lease adds no id. -/
theorem SameIds.setLease {k : LeaseId} {lease x : LeaseDescriptor} {authority : RegistryAuthority}
    {accounting : Accounting} (hold : r.leases[k]? = some lease) : SameIds r { r with
      leases := r.leases.insert k x, authority := authority, accounting := accounting } := by
  have hplaces : Places .lease k.value r { r with
      leases := r.leases.insert k x, authority := authority, accounting := accounting } := by
    refine ⟨?_, rfl⟩
    rintro (_ | _ | _ | _ | _ | _ | _ | _) v h
    case lease => exact (holds_insert h).imp id fun hv => ⟨rfl, hv⟩
    all_goals exact .inl h
  exact hplaces.same (holds_of_getElem? hold)

theorem endLease_same {id : LeaseId} {state : LeaseState} : SameIds r (r.endLease id state env).2 := by
  apply endLease_rule (P := fun o => SameIds r o.2)
  case rejected => exact fun _ _ => .refl r
  case unknown => exact fun _ _ => .refl r
  case inactive => exact fun _ _ _ _ => .write (fun K _ => by cases K <;> rfl) rfl
  case ended => exact fun _ _ hold _ => .setLease hold

theorem acquire_lease_numbers (lease : LeaseDescriptor) :
    Numbers (.acquire_lease lease env) r (r.acquire_lease lease env).2 := by
  have hplaces : ∀ (s : Registry) (k : LeaseId) x authority accounting, Places .lease k.value s { s with
      leases := s.leases.insert k x, authority := authority, accounting := accounting } := by
    refine fun s k x authority accounting => ⟨?_, rfl⟩
    rintro (_ | _ | _ | _ | _ | _ | _ | _) v h
    case lease => exact (holds_insert h).imp id fun hv => ⟨rfl, hv⟩
    all_goals exact .inl h
  apply authorized_rule (P := fun o => Numbers _ r o.2)
  case rejected => exact fun _ _ => .kept (.refl r)
  case accepted =>
    intro _
    by_cases h0 : lease.lease_id.value = 0
    · simp only [if_pos h0]
      exact .assigned .lease (by rw [Op.names, h0]) (hplaces { r with next_id := r.next_id + 1 } ⟨r.next_id⟩ _ _ _)
    · simp only [if_neg h0]
      exact .named .lease _ rfl h0 (hplaces r lease.lease_id _ _ _)

theorem create_tombstone_numbers (tomb : TombstoneRecord) :
    Numbers (.create_tombstone tomb env) r (r.create_tombstone tomb env).2 := by
  have hplaces : ∀ (s : Registry) (k : TombstoneId) x authority accounting, Places .tombstone k.value s { s with
      tombstones := s.tombstones.insert k x, authority := authority, accounting := accounting } := by
    refine fun s k x authority accounting => ⟨?_, rfl⟩
    rintro (_ | _ | _ | _ | _ | _ | _ | _) v h
    case tombstone => exact (holds_insert h).imp id fun hv => ⟨rfl, hv⟩
    all_goals exact .inl h
  apply authorized_rule (P := fun o => Numbers _ r o.2)
  case rejected => exact fun _ _ => .kept (.refl r)
  case accepted =>
    intro _
    by_cases h0 : tomb.tombstone_id.value = 0
    · simp only [if_pos h0]
      exact .assigned .tombstone (by rw [Op.names, h0]) (hplaces { r with next_id := r.next_id + 1 } ⟨r.next_id⟩ _ _ _)
    · simp only [if_neg h0]
      exact .named .tombstone _ rfl h0 (hplaces r tomb.tombstone_id _ _ _)

theorem renew_lease_same {k : LeaseId} : SameIds r (r.renew_lease k env).2 := by
  apply renew_lease_rule (P := fun o => SameIds r o.2)
  case rejected => exact fun _ _ => .refl r
  case unknown => exact fun _ _ _ => .refl r
  case refused => exact fun _ _ _ _ => .write (fun K _ => by cases K <;> rfl) rfl
  case renewed => exact fun _ _ hold _ => .setLease hold

theorem mark_lease_same {k : LeaseId} : SameIds r (r.mark_lease_revalidation_required k) :=
  mark_lease_revalidation_required_rule (P := SameIds r) (.refl r) fun _ hold _ => .setLease hold

/-- The ends of incarnations expire stored leases at most. -/
theorem incarnation_numbers {op : Op} (hc : op.class = .incarnation) : Numbers op r (r.exec scan op).2 := by
  have himage : op.class ≠ .image := by rw [hc]; decide
  have hdesc : op.class ≠ .descriptor := by rw [hc]; decide
  have hlease : ∀ v, Numbered.Holds (r.exec scan op).2 v .lease → Numbered.Holds r v .lease := by
    intro v h
    obtain ⟨lease, hl⟩ := exists_of_holds h
    cases r.exec_lease_change scan op himage ⟨v⟩ with
    | kept h' => exact holds_of_getElem? (h'.symm.trans hl)
    | acquired _ _ hop => rw [hop] at hc; cases hc
    | renewed _ _ _ hr => exact holds_of_getElem? hr.stored
    | expired _ _ _ _ hold | revoked _ _ _ _ hold | marked _ _ hold | dead _ _ _ _ hold | revalidated _ _ hold =>
      exact holds_of_getElem? hold
  have hkept : (∀ K v, K ≠ Numbered.endpoint → K ≠ Numbered.inst → K ≠ Numbered.lease →
      Numbered.Holds (r.exec scan op).2 v K → Numbered.Holds r v K) → (r.exec scan op).2.next_id = r.next_id →
      op.newInstance = none → Numbers op r (r.exec scan op).2 := by
    refine fun hw hnext hnew => .kept ⟨fun K v h => ?_, hnext⟩
    refine (changes_hold himage hdesc (fun K v hep hinst h => ?_) K v h).resolve_right ?_
    · by_cases hl : K = .lease
      · exact hl ▸ hlease v (hl ▸ h)
      · exact hw K v hep hinst hl h
    · rintro ⟨_, inst, hinst, _⟩
      cases hnew.symm.trans hinst
  cases op <;> simp only [Op.class, reduceCtorEq] at hc
  case begin_coordinator_epoch =>
    refine hkept (fun K v hep hinst hl h => ?_) rfl rfl
    cases K
    case endpoint => exact absurd rfl hep
    case inst => exact absurd rfl hinst
    case lease => exact absurd rfl hl
    case capability => exact Std.ExtTreeMap.mem_map.1 h
    all_goals exact h
  case adopt_worker worker =>
    obtain ⟨_, _, _, _, _, hw⟩ := adopt_worker_writes r worker
    simp only [exec, hw] at hkept ⊢
    refine hkept (fun K v hep hinst hl h => ?_) trivial rfl
    cases K
    case endpoint => exact absurd rfl hep
    case inst => exact absurd rfl hinst
    case lease => exact absurd rfl hl
    all_goals exact h
  case mark_worker_died boot =>
    obtain ⟨_, _, _, _, hw⟩ := revoke_writes r boot
    simp only [exec, mark_worker_died, hw] at hkept ⊢
    refine hkept (fun K v hep hinst hl h => ?_) trivial rfl
    cases K
    case endpoint => exact absurd rfl hep
    case inst => exact absurd rfl hinst
    case lease => exact absurd rfl hl
    all_goals exact h

/-- What every call other than `load_from` does to the ids. -/
theorem exec_numbers (r : Registry) (scan : List ServiceInstanceId) (op : Op) (himage : op.class ≠ .image) :
    Numbers op r (r.exec scan op).2 := by
  rcases hc : op.class
  case descriptor => exact descriptor_numbers hc
  case inst => exact inst_numbers hc
  case incarnation => exact incarnation_numbers hc
  case lease =>
    cases op <;> simp only [Op.class, reduceCtorEq] at hc
    case acquire_lease lease env => exact acquire_lease_numbers lease
    case renew_lease => exact .kept renew_lease_same
    case expire_lease => exact .kept endLease_same
    case revoke_lease => exact .kept endLease_same
    case mark_lease_revalidation_required => exact .kept mark_lease_same
  case tombstone =>
    cases op <;> simp only [Op.class, reduceCtorEq] at hc
    case create_tombstone tomb env => exact create_tombstone_numbers tomb
  case note =>
    cases op <;> simp only [Op.class, reduceCtorEq] at hc
    case set_worker_health_reporting | query | serialize => exact .kept (.refl r)
    case query_and_account => exact .kept (.write (fun K _ => by cases K <;> rfl) rfl)
    case invalidate record env =>
      refine .kept (show SameIds r (r.invalidate record env).2 from ?_)
      apply authorized_rule (P := fun o => SameIds r o.2)
      case rejected => exact fun _ _ => .refl r
      case accepted => exact fun _ => .write (fun K _ => by cases K <;> rfl) rfl
  case image => exact absurd hc himage

end Registry

end RuntimeRegistry
