import RuntimeRegistry.Operations
/-!
# What a call can do

One rule for each call that branches: a property of every outcome the call can
have holds of its outcome. The rules say everything a branch knows, guards
included, so the proofs about runs never unfold a call. The frame rules say which
parts of the state a loop leaves alone.
-/
open Lib

namespace RuntimeRegistry

namespace Registry

variable {α β : Type} {r : Registry} {env : AuthorityEnvelope}

theorem authorized_rule {P : Outcome α → Prop} {body : Outcome α}
    (rejected : ∀ e, ¬ r.Accepts env → P (.error e, r)) (accepted : r.Accepts env → P body) :
    P (r.authorized env body) := by
  by_cases h : r.Accepts env
  · rw [authorized_accepted h]; exact accepted h
  · obtain ⟨e, he⟩ := authorized_rejected h body
    rw [he]; exact rejected e h

/-! ## Registration of descriptors -/

section
variable {tag : IdTag} {gen : GenTag} {ρ : Type}

/-- A record keeps its id or, where the domain assigns ids, takes the next one. -/
theorem Domain.assign_rule {P : ρ → Registry → Prop} (D : Domain tag gen ρ) {withId : Id tag → ρ → ρ} {x : ρ}
    (hid : D.withId = some withId)
    (assigned : (D.id x).value = 0 → P (withId ⟨r.next_id⟩ x) { r with next_id := r.next_id + 1 })
    (kept : (D.id x).value ≠ 0 → P x r) : P (D.assign x r).1 (D.assign x r).2 := by
  unfold Domain.assign
  rw [hid]
  by_cases h : (D.id x).value = 0
  · simpa only [if_pos h] using assigned h
  · simpa only [if_neg h] using kept h

theorem registerRecord_rule {P : Outcome (Id tag) → Prop} (D : Domain tag gen ρ) {x : ρ}
    (rejected : ∀ e, ¬ r.Accepts env → P (.error e, r))
    (repeated : r.Accepts env → ∀ current, (D.table r)[D.id x]? = some current →
      D.generation x = D.generation current → D.same x current → P (.ok (D.id x), r))
    (stale : r.Accepts env → ∀ current, (D.table r)[D.id x]? = some current →
      D.generation x ≤ D.generation current → P (.error (D.stale x current), r.countDuplicate))
    (replaced : r.Accepts env → ∀ current, (D.table r)[D.id x]? = some current →
      D.generation current < D.generation x → P (D.commit x (D.replace current x r)))
    (fenced : r.Accepts env → (D.table r)[D.id x]? = none → ∀ f, D.fenced x r = some f →
      P (.error ⟨.TOMBSTONE_RESURRECTION, f.message⟩, r.countStale))
    (inserted : r.Accepts env → (D.table r)[D.id x]? = none → D.fenced x r = none →
      P (D.commit (D.assign x r).1 (D.insert (D.assign x r).1 (D.assign x r).2))) :
    P (registerRecord D r x env) := by
  refine authorized_rule rejected fun ha => ?_
  split
  · rename_i current hc
    split_ifs with h₁ h₂
    · simp only [Bool.and_eq_true, decide_eq_true_eq] at h₁
      exact repeated ha current hc h₁.1 h₁.2
    · exact stale ha current hc h₂
    · exact replaced ha current hc (not_le.1 h₂)
  · rename_i hc
    split
    · exact fenced ha hc _ ‹_›
    · exact inserted ha hc ‹_›

/-- The domain stores a record in its own table under the record's id, and an
assigned id is the record's id. -/
structure Domain.Lawful (D : Domain tag gen ρ) : Prop where
  table_replace : ∀ current x r, D.table (D.replace current x r) = (D.table r).insert (D.id x) x
  table_insert : ∀ x r, D.table (D.insert x r) = (D.table r).insert (D.id x) x
  table_commit : ∀ x r, D.table (D.commit x r).2 = D.table r
  table_next : ∀ r n, D.table { r with next_id := n } = D.table r
  table_accounting : ∀ r a, D.table { r with accounting := a } = D.table r
  id_withId : ∀ withId ∈ D.withId, ∀ n x, D.id (withId n x) = n

end

theorem services_lawful : services_.Lawful where
  table_replace _ _ _ := rfl
  table_insert _ _ := rfl
  table_commit x r := by
    obtain ⟨_, _, _, _, h⟩ := rebuild_indexes_writes
      { r with authority := services_.raise (services_.generation x) r.authority }.commit_registry_generation
    exact congrArg (·.services) h
  table_next _ _ := rfl
  table_accounting _ _ := rfl
  id_withId _ h := nomatch h

theorem runtimes_lawful : runtimes_.Lawful where
  table_replace _ _ _ := rfl
  table_insert _ _ := rfl
  table_commit _ _ := rfl
  table_next _ _ := rfl
  table_accounting _ _ := rfl
  id_withId := by rintro _ ⟨⟩ _ _; rfl

theorem endpoints_lawful : endpoints_.Lawful where
  table_replace _ _ _ := rfl
  table_insert _ _ := rfl
  table_commit _ _ := rfl
  table_next _ _ := rfl
  table_accounting _ _ := rfl
  id_withId := by rintro _ ⟨⟩ _ _; rfl

theorem capabilities_lawful : capabilities_.Lawful where
  table_replace _ _ _ := rfl
  table_insert _ _ := rfl
  table_commit _ _ := rfl
  table_next _ _ := rfl
  table_accounting _ _ := rfl
  id_withId := by rintro _ ⟨⟩ _ _; rfl

/-! ## Registration of an instance -/

/-- A non-historical instance of the service. -/
def IsCurrent (r : Registry) (service : ServiceId) (id : ServiceInstanceId) (inst : ServiceInstance) : Prop :=
  r.instances[id]? = some inst ∧ inst.service_id = service ∧ historical inst.lifecycle = false

theorem currentOf_cases (r : Registry) (service : ServiceId) (current : Option (ServiceInstanceId × ServiceInstance))
    (id : ServiceInstanceId) :
    (r.currentOf service current id = current ∧ ∀ inst, r.IsCurrent service id inst →
      ∃ c ∈ current, inst.instance_generation ≤ c.2.instance_generation) ∨
    ∃ inst, r.currentOf service current id = some (id, inst) ∧ r.IsCurrent service id inst ∧
      ∀ c ∈ current, c.2.instance_generation < inst.instance_generation := by
  unfold currentOf
  split
  · rename_i h
    exact .inl ⟨rfl, fun inst hc => by simp [IsCurrent, h] at hc⟩
  · rename_i inst h
    split_ifs with hm
    · simp only [Bool.and_eq_true, decide_eq_true_eq, Bool.not_eq_true'] at hm
      rcases current with _ | ⟨cid, c⟩
      · exact .inr ⟨inst, rfl, ⟨h, hm⟩, by simp⟩
      · dsimp only
        split_ifs with hg
        · exact .inr ⟨inst, rfl, ⟨h, hm⟩, by simpa using hg⟩
        · refine .inl ⟨rfl, fun inst' hc => ⟨_, rfl, ?_⟩⟩
          obtain rfl : inst = inst' := Option.some.inj (h.symm.trans hc.1)
          exact not_lt.1 hg
    · refine .inl ⟨rfl, fun inst' hc => absurd ?_ hm⟩
      obtain rfl : inst = inst' := Option.some.inj (h.symm.trans hc.1)
      simp [hc.2.1, hc.2.2]

theorem currentScan (r : Registry) (service : ServiceId) (scan : List ServiceInstanceId)
    (start : Option (ServiceInstanceId × ServiceInstance)) :
    (∀ c ∈ scan.foldl (r.currentOf service) start, c ∈ start ∨ r.IsCurrent service c.1 c.2) ∧
    (∀ c ∈ start, ∃ d ∈ scan.foldl (r.currentOf service) start,
      c.2.instance_generation ≤ d.2.instance_generation) ∧
    ∀ id ∈ scan, ∀ inst, r.IsCurrent service id inst →
      ∃ d ∈ scan.foldl (r.currentOf service) start, inst.instance_generation ≤ d.2.instance_generation := by
  induction scan generalizing start with
  | nil => exact ⟨fun _ h => .inl h, fun c h => ⟨c, h, le_rfl⟩, by simp⟩
  | cons id scan ih =>
    obtain ⟨h₁, h₂, h₃⟩ := ih (r.currentOf service start id)
    rw [List.foldl_cons]
    rcases r.currentOf_cases service start id with ⟨he, hmax⟩ | ⟨inst, he, hc, hlt⟩
    · rw [he] at h₁ h₂ h₃ ⊢
      refine ⟨h₁, h₂, List.forall_mem_cons.2 ⟨fun inst hi => ?_, h₃⟩⟩
      obtain ⟨c, hcs, hle⟩ := hmax inst hi
      obtain ⟨d, hd, hle'⟩ := h₂ c hcs
      exact ⟨d, hd, hle.trans hle'⟩
    · rw [he] at h₁ h₂ h₃ ⊢
      obtain ⟨d, hd, hle⟩ := h₂ (id, inst) rfl
      refine ⟨fun c hcr => ?_, fun c hcs => ⟨d, hd, (hlt c hcs).le.trans hle⟩,
        List.forall_mem_cons.2 ⟨fun inst' hi => ⟨d, hd, ?_⟩, h₃⟩⟩
      · rcases h₁ c hcr with h | h
        · cases h; exact .inr hc
        · exact .inr h
      · obtain rfl : inst = inst' := Option.some.inj (hc.1.symm.trans hi.1)
        exact hle

/-- The instance that the scan finds is a current one. -/
theorem currentInstance_some {scan : List ServiceInstanceId} {service : ServiceId} {id : ServiceInstanceId}
    {inst : ServiceInstance} (h : r.currentInstance scan service = some (id, inst)) : r.IsCurrent service id inst := by
  rcases (r.currentScan service scan none).1 (id, inst) h with h | h
  · simp at h
  · exact h

/-- A scan of every key that finds none leaves no current instance. -/
theorem currentInstance_none {scan : List ServiceInstanceId} {service : ServiceId}
    (hscan : scan.Perm r.instances.keys) (h : r.currentInstance scan service = none) (id : ServiceInstanceId)
    (inst : ServiceInstance) : ¬ r.IsCurrent service id inst := by
  intro hc
  have hid : id ∈ scan := by
    simp [hscan.mem_iff, Std.ExtTreeMap.mem_keys, Std.ExtTreeMap.mem_iff_isSome_getElem?, hc.1]
  obtain ⟨d, hd, _⟩ := (r.currentScan service scan none).2.2 id hid inst hc
  rw [show scan.foldl (r.currentOf service) none = none from h] at hd
  cases hd

/-- No current instance of the service has a higher generation than the one found. -/
theorem currentInstance_max {scan : List ServiceInstanceId} {service : ServiceId} {id : ServiceInstanceId}
    {inst : ServiceInstance} (hscan : scan.Perm r.instances.keys)
    (h : r.currentInstance scan service = some (id, inst)) {id' : ServiceInstanceId} {inst' : ServiceInstance}
    (hc : r.IsCurrent service id' inst') : inst'.instance_generation ≤ inst.instance_generation := by
  have hid : id' ∈ scan := by
    simp [hscan.mem_iff, Std.ExtTreeMap.mem_keys, Std.ExtTreeMap.mem_iff_isSome_getElem?, hc.1]
  obtain ⟨d, hd, hle⟩ := (r.currentScan service scan none).2.2 id' hid inst' hc
  obtain rfl : (id, inst) = d := Option.some.inj (h.symm.trans hd)
  exact hle

/-- What the endpoint loop writes: the endpoints, and the count of a conflict. -/
theorem claimEndpoints_writes (id : ServiceInstanceId) (eids : List EndpointId) (r : Registry) :
    ∃ eps n, (r.claimEndpoints id eids).2 = { r with
      endpoints := eps, accounting := { r.accounting with duplicate_conflict_rejections := n } } := by
  induction eids generalizing r with
  | nil => exact ⟨_, _, rfl⟩
  | cons eid eids ih =>
    have hone : ∃ eps n, (r.claimEndpoint id eid).2 = { r with
        endpoints := eps, accounting := { r.accounting with duplicate_conflict_rejections := n } } := by
      unfold claimEndpoint
      split
      · exact ⟨_, _, rfl⟩
      · split_ifs <;> exact ⟨_, _, rfl⟩
    obtain ⟨eps, n, h⟩ := hone
    rcases hc : r.claimEndpoint id eid with ⟨_ | _, r'⟩
    · rw [hc] at h
      exact ⟨eps, n, by simp [claimEndpoints, hc, h]⟩
    · rw [hc] at h
      dsimp only at h
      subst h
      obtain ⟨eps', n', h'⟩ := ih _
      exact ⟨eps', n', by rw [claimEndpoints, hc, Outcome.andThen_ok, h']⟩

/-- The id that a registered instance is stored under: its own, or the next one for 0. -/
def assignedId (r : Registry) (inst : ServiceInstance) : ServiceInstanceId :=
  if inst.instance_id.value = 0 then ⟨r.next_id⟩ else inst.instance_id

def assignedNext (r : Registry) (inst : ServiceInstance) : UInt64 :=
  if inst.instance_id.value = 0 then r.next_id + 1 else r.next_id

theorem assignInstance_eq (r : Registry) (inst : ServiceInstance) : assignInstance inst r =
    ({ inst with instance_id := r.assignedId inst }, { r with next_id := r.assignedNext inst }) := by
  unfold assignInstance assignedId assignedNext
  by_cases h : inst.instance_id.value = 0
  · simp only [if_pos h]
  · simp only [if_neg h]

theorem register_instance_rule {P : Outcome ServiceInstanceId → Prop} {scan : List ServiceInstanceId}
    {inst : ServiceInstance}
    (rejected : ∀ e, ¬ r.Accepts env → P (.error e, r))
    (unregistered : r.Accepts env → inst.service_id ∉ r.services → ∀ e, P (.error e, r))
    (repeated : r.Accepts env → inst.service_id ∈ r.services → ∀ id current,
      r.currentInstance scan inst.service_id = some (id, current) →
      inst.instance_generation = current.instance_generation → { inst with instance_id := r.assignedId inst } == current →
      P (.ok (r.assignedId inst), { r with next_id := r.assignedNext inst }))
    (stale : r.Accepts env → inst.service_id ∈ r.services → ∀ id current,
      r.currentInstance scan inst.service_id = some (id, current) →
      inst.instance_generation ≤ current.instance_generation →
      ¬ (inst.instance_generation = current.instance_generation ∧ { inst with instance_id := r.assignedId inst } == current) →
      ∀ e, P (.error e, { r with next_id := r.assignedNext inst }.countDuplicate))
    (superseded : r.Accepts env → inst.service_id ∈ r.services → ∀ id current,
      r.currentInstance scan inst.service_id = some (id, current) →
      current.instance_generation < inst.instance_generation →
      P (({ r with next_id := r.assignedNext inst }.supersedeCurrent id current).bindInstance
        { inst with instance_id := r.assignedId inst }))
    (fenced : r.Accepts env → inst.service_id ∈ r.services → r.currentInstance scan inst.service_id = none →
      r.covered_by_tombstone (text "ServiceId") (to_string inst.service_id.value) inst.instance_generation.value →
      ∀ e, P (.error e, { r with next_id := r.assignedNext inst }.countStale))
    (first : r.Accepts env → inst.service_id ∈ r.services → r.currentInstance scan inst.service_id = none →
      ¬ r.covered_by_tombstone (text "ServiceId") (to_string inst.service_id.value) inst.instance_generation.value →
      P ({ r with next_id := r.assignedNext inst }.bindInstance { inst with instance_id := r.assignedId inst })) :
    P (r.register_instance scan inst env) := by
  refine authorized_rule rejected fun ha => ?_
  split_ifs with hs
  swap
  · exact unregistered ha hs _
  have hcur : { r with next_id := r.assignedNext inst }.currentInstance scan inst.service_id =
    r.currentInstance scan inst.service_id := rfl
  have htomb : { r with next_id := r.assignedNext inst }.covered_by_tombstone = r.covered_by_tombstone := rfl
  simp only [assignInstance_eq, hcur, htomb]
  split
  · rename_i id current hc
    split_ifs with h₁ h₂
    · simp only [Bool.and_eq_true, decide_eq_true_eq] at h₁
      exact repeated ha hs id current hc h₁.1 h₁.2
    · exact stale ha hs id current hc h₂ (by simpa using h₁) _
    · exact superseded ha hs id current hc (not_le.1 h₂)
  · rename_i hc
    split_ifs with h
    · exact fenced ha hs hc h _
    · exact first ha hs hc h

/-- A registration leaves the registry alone, but for the counters, or binds the instance. -/
theorem register_instance_state_rule {P : Registry → Prop} {scan : List ServiceInstanceId} {inst : ServiceInstance}
    (kept : ∀ next_id duplicates stale, P { r with
      next_id := next_id
      accounting := { r.accounting with
        duplicate_conflict_rejections := duplicates, stale_mutation_rejections := stale } })
    (superseded : r.Accepts env → inst.service_id ∈ r.services → ∀ id current,
      r.currentInstance scan inst.service_id = some (id, current) →
      current.instance_generation < inst.instance_generation →
      P (({ r with next_id := r.assignedNext inst }.supersedeCurrent id current).bindInstance
        { inst with instance_id := r.assignedId inst }).2)
    (first : r.Accepts env → inst.service_id ∈ r.services → r.currentInstance scan inst.service_id = none →
      ¬ r.covered_by_tombstone (text "ServiceId") (to_string inst.service_id.value) inst.instance_generation.value →
      P ({ r with next_id := r.assignedNext inst }.bindInstance { inst with instance_id := r.assignedId inst }).2) :
    P (r.register_instance scan inst env).2 := by
  apply register_instance_rule (P := fun o => P o.2)
  case rejected => exact fun _ _ => kept r.next_id _ _
  case unregistered => exact fun _ _ _ => kept r.next_id _ _
  case repeated => exact fun _ _ _ _ _ _ _ => kept _ r.accounting.duplicate_conflict_rejections _
  case stale => exact fun _ _ _ _ _ _ _ _ => kept _ _ _
  case superseded => exact superseded
  case fenced => exact fun _ _ _ _ _ => kept _ _ _
  case first => exact first

/-- An instance is bound and stored, or the endpoint loop throws. -/
theorem bindInstance_rule {P : Outcome ServiceInstanceId → Prop} {copy : ServiceInstance}
    (refused : ∀ e r', r.claimEndpoints copy.instance_id copy.endpoints = (.error e, r') → P (.error e, r'))
    (stored : ∀ r', r.claimEndpoints copy.instance_id copy.endpoints = (.ok (), r') →
      P (.ok copy.instance_id, r'.storeInstance copy)) :
    P (r.bindInstance copy) := by
  unfold bindInstance
  rcases h : r.claimEndpoints copy.instance_id copy.endpoints with ⟨e | _, r'⟩
  · exact refused e r' h
  · exact stored r' h

/-! ## Classification -/

/-- The checks of `classify` in their order: what holds of the answer of each holds of
the result. -/
theorem classify_rule {P : Lifecycle → Prop} (r : Registry) (inst : ServiceInstance)
    (dead : r.authority.is_boot_live inst.boot = false → P .STALE)
    (outdated : inst.freshness ≠ Freshness.CURRENT → P .STALE) (unreachable : P .UNREACHABLE) (unready : P .UNREADY)
    (leaseless : P .STALE) (draining : P .DRAINING) (degraded : P .DEGRADED)
    (available : r.authority.is_boot_live inst.boot = true → inst.freshness = Freshness.CURRENT →
      inst.reachability ≠ Reachability.UNREACHABLE →
      ¬ (inst.reachability = Reachability.REVALIDATION_REQUIRED ∨ inst.reachability = Reachability.UNKNOWN) →
      r.leaseActive inst.lease = true → r.requirementsFound inst = true → inst.readiness ≠ Readiness.DRAINING →
      ¬ (inst.readiness = Readiness.NOT_READY ∨ inst.readiness = Readiness.REVALIDATION_REQUIRED ∨
        inst.readiness = Readiness.UNKNOWN) →
      ¬ (inst.health = Health.UNHEALTHY ∨ inst.health = Health.UNAVAILABLE) →
      ¬ (inst.health = Health.DEGRADED ∨ inst.readiness = Readiness.PARTIALLY_READY ∨
        inst.reachability = Reachability.DEGRADED) → P .AVAILABLE) : P (r.classify inst) := by
  unfold classify
  refine iteInduction (motive := P) (fun h => dead (by simpa using h)) fun hlive => ?_
  refine iteInduction (motive := P) outdated fun hfresh => ?_
  refine iteInduction (motive := P) (fun _ => unreachable) fun hunreach => ?_
  refine iteInduction (motive := P) (fun _ => unready) fun hreach => ?_
  refine iteInduction (motive := P) (fun _ => leaseless) fun hlease => ?_
  refine iteInduction (motive := P) (fun _ => unready) fun hreq => ?_
  refine iteInduction (motive := P) (fun _ => draining) fun hdrain => ?_
  refine iteInduction (motive := P) (fun _ => unready) fun hready => ?_
  refine iteInduction (motive := P) (fun _ => unready) fun hhealth => ?_
  refine iteInduction (motive := P) (fun _ => degraded) fun hdegraded => ?_
  rw [Bool.not_eq_true', Bool.not_eq_false] at hlive hlease hreq
  exact available hlive (not_not.1 hfresh) hunreach hreach hlease hreq hdrain hready hhealth hdegraded

/-- A classified instance is never historical. -/
theorem historical_classify (r : Registry) (inst : ServiceInstance) : historical (r.classify inst) = false := by
  apply classify_rule (P := fun l => historical (l : Enum Lifecycle) = false) <;> intros <;> rfl

theorem historical_reclassify (r : Registry) (inst : ServiceInstance) :
    historical (r.reclassify_lifecycle inst).lifecycle = false := historical_classify r _

/-- The stored instance is classified against the claimed endpoints. -/
theorem storeInstance_instances (r : Registry) (copy : ServiceInstance) (k : ServiceInstanceId) :
    (r.storeInstance copy).instances[k]? =
      if copy.instance_id = k then some (r.reclassify_lifecycle copy) else r.instances[k]? := by
  have h : (r.storeInstance copy).instances =
      (r.instances.insert copy.instance_id copy).insert copy.instance_id (r.reclassify_lifecycle copy) := by
    unfold storeInstance
    obtain ⟨_, _, _, _, h⟩ := rebuild_indexes_writes (Registry.commit_registry_generation _)
    rw [h]
    rfl
  rw [h]
  by_cases hk : copy.instance_id = k <;> simp [Std.ExtTreeMap.getElem?_insert, hk]

/-! ## What the instance calls write -/

/-- `t` is `r` but for what registering and updating instances can write. -/
def InstanceWrites (r t : Registry) : Prop :=
  ∃ instances endpoints instance_history accounting next_id registry_generation record_generation authority_gen
    index_by_kind index_by_service index_by_boot index_by_node, t = { r with
      instances := instances, endpoints := endpoints, instance_history := instance_history, accounting := accounting
      next_id := next_id
      authority := { r.authority with
        registry_generation := registry_generation, record_generation := record_generation
        authority_gen := authority_gen }
      index_by_kind := index_by_kind, index_by_service := index_by_service, index_by_boot := index_by_boot
      index_by_node := index_by_node }

namespace InstanceWrites

theorem refl (r : Registry) : InstanceWrites r r := ⟨_, _, _, _, _, _, _, _, _, _, _, _, rfl⟩

theorem trans {r s t : Registry} (h₁ : InstanceWrites r s) (h₂ : InstanceWrites s t) : InstanceWrites r t := by
  obtain ⟨_, _, _, _, _, _, _, _, _, _, _, _, rfl⟩ := h₁
  obtain ⟨_, _, _, _, _, _, _, _, _, _, _, _, rfl⟩ := h₂
  exact ⟨_, _, _, _, _, _, _, _, _, _, _, _, rfl⟩

theorem countDuplicate (r : Registry) : InstanceWrites r r.countDuplicate :=
  ⟨_, _, _, _, _, _, _, _, _, _, _, _, rfl⟩

theorem countStale (r : Registry) : InstanceWrites r r.countStale := ⟨_, _, _, _, _, _, _, _, _, _, _, _, rfl⟩

theorem setInstances (r : Registry) (m : Map .ServiceInstanceId ServiceInstance) :
    InstanceWrites r { r with instances := m } := ⟨_, _, _, _, _, _, _, _, _, _, _, _, rfl⟩

theorem setEndpoints (r : Registry) (m : Map .EndpointId EndpointDescriptor) :
    InstanceWrites r { r with endpoints := m } := ⟨_, _, _, _, _, _, _, _, _, _, _, _, rfl⟩

theorem commit (r : Registry) : InstanceWrites r r.commit_registry_generation :=
  ⟨_, _, _, _, _, _, _, _, _, _, _, _, rfl⟩

theorem rebuild_indexes (r : Registry) : InstanceWrites r r.rebuild_indexes := by
  obtain ⟨a, b, c, d, h⟩ := rebuild_indexes_writes r
  exact ⟨_, _, _, _, _, _, _, _, _, _, _, _, h⟩

theorem supersedeCurrent (r : Registry) (id : ServiceInstanceId) (current : ServiceInstance) :
    InstanceWrites r (r.supersedeCurrent id current) := ⟨_, _, _, _, _, _, _, _, _, _, _, _, rfl⟩

theorem setNextId (r : Registry) (n : UInt64) : InstanceWrites r { r with next_id := n } :=
  ⟨_, _, _, _, _, _, _, _, _, _, _, _, rfl⟩

theorem claimEndpoints (r : Registry) (id : ServiceInstanceId) (eids : List EndpointId) :
    InstanceWrites r (r.claimEndpoints id eids).2 := by
  obtain ⟨eps, n, h⟩ := claimEndpoints_writes id eids r
  exact ⟨_, _, _, _, _, _, _, _, _, _, _, _, h⟩

theorem storeInstance (r : Registry) (copy : ServiceInstance) : InstanceWrites r (r.storeInstance copy) := by
  unfold Registry.storeInstance
  refine .trans ?_ (rebuild_indexes _)
  exact ⟨_, _, _, _, _, _, _, _, _, _, _, _, rfl⟩

theorem bindInstance (r : Registry) (copy : ServiceInstance) : InstanceWrites r (r.bindInstance copy).2 := by
  refine bindInstance_rule (P := fun o => InstanceWrites r o.2) ?_ ?_ <;> intros <;> rename_i h
  · have := claimEndpoints r copy.instance_id copy.endpoints
    rwa [h] at this
  · have := claimEndpoints r copy.instance_id copy.endpoints
    rw [h] at this
    exact this.trans (storeInstance _ _)

theorem register_instance (r : Registry) (scan : List ServiceInstanceId) (inst : ServiceInstance)
    (env : AuthorityEnvelope) : InstanceWrites r (r.register_instance scan inst env).2 := by
  have ha := setNextId r (r.assignedNext inst)
  refine register_instance_state_rule (P := InstanceWrites r) ?kept ?superseded ?first
  case kept => exact fun _ _ _ => ⟨_, _, _, _, _, _, _, _, _, _, _, _, rfl⟩
  case superseded => exact fun _ _ _ _ _ _ => ha.trans ((supersedeCurrent _ _ _).trans (bindInstance _ _))
  case first => exact fun _ _ _ _ => ha.trans (bindInstance _ _)

end InstanceWrites

/-! ## Instance transitions -/

theorem updateInstance_rule {P : Outcome Unit → Prop} {id : ServiceInstanceId}
    {write : ServiceInstance → ServiceInstance} {stale : RegistryError}
    (rejected : ∀ e, ¬ r.Accepts env → P (.error e, r))
    (unknown : r.Accepts env → r.instances[id]? = none → ∀ e, P (.error e, r))
    (superseded : r.Accepts env → ∀ inst, r.instances[id]? = some inst →
      generation_is_current_generation env inst = false → P (.error stale, r.countStale))
    (updated : r.Accepts env → ∀ inst, r.instances[id]? = some inst → generation_is_current_generation env inst = true →
      P (.ok (), { r with
        instances := r.instances.insert id (r.reclassify_lifecycle (write inst)) }.commit_registry_generation)) :
    P (r.updateInstance id write stale env) := by
  refine authorized_rule rejected fun ha => ?_
  split
  · exact unknown ha ‹_› _
  · rename_i inst hi
    split_ifs with h
    · exact superseded ha inst hi (by simpa using h)
    · exact updated ha inst hi (by simpa using h)

theorem update_reachability_rule {P : Outcome Unit → Prop} {id : EndpointId} {rc : Enum Reachability}
    (rejected : ∀ e, ¬ r.Accepts env → P (.error e, r))
    (unknown : r.Accepts env → r.endpoints[id]? = none → ∀ e, P (.error e, r))
    (stale : r.Accepts env → ∀ ep, r.endpoints[id]? = some ep →
      env.endpoint_generation.value ≠ 0 ∧ env.endpoint_generation ≠ ep.generation → ∀ e, P (.error e, r.countStale))
    (updated : r.Accepts env → ∀ ep, r.endpoints[id]? = some ep →
      ¬ (env.endpoint_generation.value ≠ 0 ∧ env.endpoint_generation ≠ ep.generation) →
      P (.ok (), ({ r with endpoints := r.endpoints.insert id { ep with reachability := rc } }.reclassifyOwner
        ep.service_instance).commit_registry_generation)) :
    P (r.update_reachability id rc env) := by
  refine authorized_rule rejected fun ha => ?_
  split
  · exact unknown ha ‹_› _
  · rename_i ep hep
    split_ifs with h
    · exact stale ha ep hep h _
    · exact updated ha ep hep h

theorem reclassifyOwner_rule {P : Registry → Prop} (owner : ServiceInstanceId) (kept : P r)
    (reclassified : owner.value ≠ 0 → ∀ inst, r.instances[owner]? = some inst →
      P { r with instances := r.instances.insert owner (r.reclassify_lifecycle inst) }) :
    P (r.reclassifyOwner owner) := by
  unfold reclassifyOwner
  split_ifs with h
  · split
    · exact reclassified h _ ‹_›
    · exact kept
  · exact kept

theorem deregister_rule {P : Outcome Unit → Prop} {id : ServiceInstanceId}
    (rejected : ∀ e, ¬ r.Accepts env → P (.error e, r))
    (unknown : r.Accepts env → r.instances[id]? = none → P (.ok (), r))
    (stale : r.Accepts env → ∀ inst, r.instances[id]? = some inst →
      generation_is_current_generation env inst = false → ∀ e, P (.error e, r.countStale))
    (retired : r.Accepts env → ∀ inst, r.instances[id]? = some inst → generation_is_current_generation env inst = true →
      P (.ok (), { r with
        instance_history := r.instance_history ++ [inst]
        instances := r.instances.insert id { inst with lifecycle := Lifecycle.RETIRED }
        accounting := { r.accounting with
          available_instances := decrement r.accounting.available_instances
          deregistrations := r.accounting.deregistrations + 1 } }.commit_registry_generation)) :
    P (r.deregister id env) := by
  refine authorized_rule rejected fun ha => ?_
  split
  · exact unknown ha ‹_›
  · rename_i inst hi
    split_ifs with h
    · exact stale ha inst hi (by simpa using h) _
    · exact retired ha inst hi (by simpa using h)

/-- The old instance is marked and put into history, and the new one registered. -/
def markSuperseded (r : Registry) (id : ServiceInstanceId) (old : ServiceInstance) : Registry :=
  { r with
    instance_history := r.instance_history ++ [old]
    instances := r.instances.insert id { old with lifecycle := Lifecycle.SUPERSEDED }
    accounting := { r.accounting with available_instances := decrement r.accounting.available_instances } }

theorem supersede_rule {P : Outcome Unit → Prop} {scan : List ServiceInstanceId} {old_id : ServiceInstanceId}
    {new_inst : ServiceInstance}
    (rejected : ∀ e, ¬ r.Accepts env → P (.error e, r))
    (unknown : r.Accepts env → r.instances[old_id]? = none → ∀ e, P (.error e, r))
    (refused : r.Accepts env → ∀ old, r.instances[old_id]? = some old → ∀ e t,
      (r.markSuperseded old_id old).register_instance scan new_inst env = (.error e, t) → P (.error e, t))
    (registered : r.Accepts env → ∀ old, r.instances[old_id]? = some old → ∀ id t,
      (r.markSuperseded old_id old).register_instance scan new_inst env = (.ok id, t) →
      P (.ok (), { t with accounting := { t.accounting with supersessions := t.accounting.supersessions + 1 } })) :
    P (r.supersede scan old_id new_inst env) := by
  refine authorized_rule rejected fun ha => ?_
  split
  · exact unknown ha ‹_› _
  · rename_i old hold
    show P (((r.markSuperseded old_id old).register_instance scan new_inst env).andThen _)
    rcases h : (r.markSuperseded old_id old).register_instance scan new_inst env with ⟨e | id, t⟩
    · exact refused ha old hold e t h
    · exact registered ha old hold id t h

/-- A supersession leaves the registry alone or, but for the accounting, as the
registration does where the old instance is marked. -/
theorem supersede_state_rule {P : Registry → Prop} {scan : List ServiceInstanceId} {old_id : ServiceInstanceId}
    {new_inst : ServiceInstance} (kept : P r)
    (entered : r.Accepts env → ∀ old, r.instances[old_id]? = some old → ∀ accounting,
      P { ((r.markSuperseded old_id old).register_instance scan new_inst env).2 with accounting := accounting }) :
    P (r.supersede scan old_id new_inst env).2 := by
  apply supersede_rule (P := fun o => P o.2)
  case rejected => exact fun _ _ => kept
  case unknown => exact fun _ _ _ => kept
  case refused =>
    intro ha old hold e t ht
    have h := entered ha old hold t.accounting
    rwa [ht] at h
  case registered =>
    intro ha old hold id t ht
    have h := entered ha old hold { t.accounting with supersessions := t.accounting.supersessions + 1 }
    rwa [ht] at h

/-- A supersession of a stored instance leaves what the registration leaves. -/
theorem supersede_marked {scan : List ServiceInstanceId} {old_id : ServiceInstanceId} {new_inst : ServiceInstance}
    {old : ServiceInstance} (ha : r.Accepts env) (hold : r.instances[old_id]? = some old) :
    (r.supersede scan old_id new_inst env).2 =
      { ((r.markSuperseded old_id old).register_instance scan new_inst env).2 with
        accounting := (r.supersede scan old_id new_inst env).2.accounting } := by
  apply supersede_rule (P := fun o => o.2 =
    { ((r.markSuperseded old_id old).register_instance scan new_inst env).2 with accounting := o.2.accounting })
  case rejected => exact fun _ hnot => absurd ha hnot
  case unknown => exact fun _ hnone => nomatch hnone.symm.trans hold
  case refused =>
    intro _ old' hold' e t ht
    obtain rfl := Option.some.inj (hold.symm.trans hold')
    rw [ht]
  case registered =>
    intro _ old' hold' id t ht
    obtain rfl := Option.some.inj (hold.symm.trans hold')
    rw [ht]

theorem InstanceWrites.supersede (r : Registry) (scan : List ServiceInstanceId) (old_id : ServiceInstanceId)
    (new_inst : ServiceInstance) (env : AuthorityEnvelope) :
    InstanceWrites r (r.supersede scan old_id new_inst env).2 := by
  have hm : ∀ old, InstanceWrites r (r.markSuperseded old_id old) :=
    fun _ => ⟨_, _, _, _, _, _, _, _, _, _, _, _, rfl⟩
  refine supersede_state_rule (P := InstanceWrites r) (.refl r) fun _ old _ _ => ?_
  exact ((hm old).trans (.register_instance ..)).trans ⟨_, _, _, _, _, _, _, _, _, _, _, _, rfl⟩

theorem InstanceWrites.updateInstance (r : Registry) (id : ServiceInstanceId)
    (write : ServiceInstance → ServiceInstance) (stale : RegistryError) (env : AuthorityEnvelope) :
    InstanceWrites r (r.updateInstance id write stale env).2 := by
  refine updateInstance_rule (P := fun o => InstanceWrites r o.2) ?_ ?_ ?_ ?_ <;> intros
  · exact refl r
  · exact refl r
  · exact countStale r
  · exact (setInstances r _).trans (commit _)

theorem InstanceWrites.reclassifyOwner (r : Registry) (owner : ServiceInstanceId) :
    InstanceWrites r (r.reclassifyOwner owner) :=
  reclassifyOwner_rule (P := InstanceWrites r) owner (refl r) fun _ _ _ => setInstances r _

theorem InstanceWrites.update_reachability (r : Registry) (id : EndpointId) (rc : Enum Reachability)
    (env : AuthorityEnvelope) : InstanceWrites r (r.update_reachability id rc env).2 := by
  refine update_reachability_rule (P := fun o => InstanceWrites r o.2) ?_ ?_ ?_ ?_ <;> intros
  · exact refl r
  · exact refl r
  · exact countStale r
  · exact (setEndpoints r _).trans ((reclassifyOwner _ _).trans (commit _))

theorem InstanceWrites.deregister (r : Registry) (id : ServiceInstanceId) (env : AuthorityEnvelope) :
    InstanceWrites r (r.deregister id env).2 := by
  refine deregister_rule (P := fun o => InstanceWrites r o.2) ?_ ?_ ?_ ?_ <;> intros
  · exact refl r
  · exact refl r
  · exact countStale r
  · exact ⟨_, _, _, _, _, _, _, _, _, _, _, _, rfl⟩

/-! ## Leases -/

theorem renew_lease_rule {P : Outcome Unit → Prop} {id : LeaseId}
    (rejected : ∀ e, ¬ r.Accepts env → P (.error e, r))
    (unknown : r.Accepts env → r.leases[id]? = none → ∀ e, P (.error e, r))
    (refused : r.Accepts env → ∀ lease, r.leases[id]? = some lease → ∀ e, P (.error e, r.countStale))
    (renewed : r.Accepts env → ∀ lease, r.leases[id]? = some lease → lease.state ≠ LeaseState.REVOKED →
      P (.ok (), { r with
        leases := r.leases.insert id { lease with state := LeaseState.ACTIVE } }.commit_registry_generation)) :
    P (r.renew_lease id env) := by
  refine authorized_rule rejected fun ha => ?_
  split
  · exact unknown ha ‹_› _
  · rename_i lease hl
    split_ifs with h₁
    · exact refused ha lease hl _
    · exact refused ha lease hl _
    · exact refused ha lease hl _
    · exact renewed ha lease hl h₁

theorem endLease_rule {P : Outcome Unit → Prop} {id : LeaseId} {state : LeaseState}
    (rejected : ∀ e, ¬ r.Accepts env → P (.error e, r))
    (unknown : r.Accepts env → r.leases[id]? = none → P (.ok (), r))
    (inactive : r.Accepts env → ∀ lease, r.leases[id]? = some lease → lease.state ≠ LeaseState.ACTIVE →
      P (.ok (), r.commit_registry_generation))
    (ended : r.Accepts env → ∀ lease, r.leases[id]? = some lease → lease.state = LeaseState.ACTIVE →
      P (.ok (), { r with
        leases := r.leases.insert id { lease with state := state }
        accounting := { r.accounting with
          expired_leases := r.accounting.expired_leases + 1
          active_leases := decrement r.accounting.active_leases } }.commit_registry_generation)) :
    P (r.endLease id state env) := by
  refine authorized_rule rejected fun ha => ?_
  split
  · exact unknown ha ‹_›
  · rename_i lease hl
    by_cases h : lease.state = LeaseState.ACTIVE
    · simpa only [if_pos h] using ended ha lease hl h
    · simpa only [if_neg h] using inactive ha lease hl h

theorem mark_lease_revalidation_required_rule {P : Registry → Prop} {id : LeaseId} (kept : P r)
    (marked : ∀ lease, r.leases[id]? = some lease → lease.state = LeaseState.ACTIVE →
      P { r with
        leases := r.leases.insert id { lease with state := LeaseState.REVALIDATION_REQUIRED }
        accounting := { r.accounting with active_leases := decrement r.accounting.active_leases } }) :
    P (r.mark_lease_revalidation_required id) := by
  unfold mark_lease_revalidation_required
  split
  · exact kept
  · split_ifs with h
    · exact marked _ ‹_› h
    · exact kept

end Registry

end RuntimeRegistry
