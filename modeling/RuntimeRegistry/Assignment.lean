import RuntimeRegistry.Claiming
import RuntimeRegistry.Numbering
/-!
# Assigned ids

A record is stored under its id whatever stands there. So an assigned id is fresh as
long as no caller has taken it before the counter, and an instance spares the other
services as long as its id is none of theirs.
-/
open Lib

namespace RuntimeRegistry

namespace Registry

variable {r s t : Registry} {env : AuthorityEnvelope} {scan : List ServiceInstanceId} {inst : ServiceInstance}

/-! ## Freshness -/

/-- The call itself puts a record of the kind under the id: it names the id, or loads an
image whose counter does not stand behind it. -/
def Puts (r : Registry) (e : Event) (K : Numbered) (v : UInt64) : Prop :=
  Numbered.Holds (r.exec e.scan e.op).2 v K ∧
    (e.op.names = some (K, v) ∧ v ≠ 0 ∨
      e.op.class = .image ∧ ¬ (v ≠ 0 ∧ v < (r.exec e.scan e.op).2.next_id))

/-- A call of the run puts a record of the kind under the id. -/
def PutIn : Registry → List Event → Numbered → UInt64 → Prop
  | _, [], _, _ => False
  | s, e :: es, K, v => s.Puts e K v ∨ PutIn (s.exec e.scan e.op).2 es K v

/-- The call takes no id from a counter that has wrapped to 0. -/
def NoOverflow (r : Registry) (e : Event) : Prop := ∀ K, e.op.names = some (K, 0) → r.next_id ≠ 0

/-- While the counter has not wrapped, it stands behind every stored id that satisfies
no `P`. -/
def Counted (P : Numbered → UInt64 → Prop) (r : Registry) : Prop :=
  r.next_id ≠ 0 → ∀ K v, Numbered.Holds r v K → v ≠ 0 ∧ v < r.next_id ∨ P K v

theorem Counted.step {P : Numbered → UInt64 → Prop} {e : Event} (h : Counted P r) (hs : Step r e t)
    (hroom : NoOverflow r e) (hputs : ∀ K v, r.Puts e K v → P K v) : Counted P t := by
  have ht := hs.state
  intro hzero K v hv
  by_cases himage : e.op.class = .image
  · by_cases hbelow : v ≠ 0 ∧ v < t.next_id
    · exact .inl hbelow
    · exact .inr (hputs K v ⟨ht ▸ hv, .inr ⟨himage, ht ▸ hbelow⟩⟩)
  have hnumbers := r.exec_numbers e.scan e.op himage
  rw [← ht] at hnumbers
  cases hnumbers with
  | kept hsame =>
    rw [hsame.next_id] at hzero ⊢
    exact h hzero K v (hsame.holds K v hv)
  | named K' v' hop hv' hplaces =>
    rw [hplaces.next_id] at hzero ⊢
    rcases hplaces.holds K v hv with hr | ⟨rfl, rfl⟩
    · exact h hzero K v hr
    · exact .inr (hputs K v ⟨ht ▸ hv, .inl ⟨hop, hv'⟩⟩)
  | assigned K' hop hplaces =>
    have hnext : t.next_id = r.next_id + 1 := hplaces.next_id
    have hpositive := hroom K' hop
    -- the counter has not wrapped, so it moved up
    have hlt : r.next_id < t.next_id := by
      rw [UInt64.lt_iff_toNat_lt, hnext, UInt64.toNat_add, UInt64.toNat_one]
      have hne : (r.next_id + 1).toNat ≠ 0 := fun h0 => hzero (hnext ▸ UInt64.toNat_inj.1 h0)
      rw [UInt64.toNat_add, UInt64.toNat_one] at hne
      have := r.next_id.toNat_lt
      omega
    rcases hplaces.holds K v hv with hr | ⟨rfl, rfl⟩
    · have hr : Numbered.Holds r v K := by cases K <;> exact hr
      exact (h hpositive K v hr).imp (fun hb => ⟨hb.1, UInt64.lt_trans hb.2 hlt⟩) id
    · exact .inl ⟨hpositive, hlt⟩

theorem Counted.run {P : Numbered → UInt64 → Prop} {es : List Event} (hr : Run (Guarded Step NoOverflow) s es t)
    (h : Counted P s) : Counted (fun K v => P K v ∨ PutIn s es K v) t := by
  induction hr generalizing P with
  | nil s => exact fun hzero K v hv => (h hzero K v hv).imp id .inl
  | cons hst _ ih =>
    rename_i s u _ e es _
    -- what this call puts counts as put before the rest of the run
    have hstep : Counted (fun K v => P K v ∨ s.Puts e K v) u := by
      refine Counted.step (fun hzero K v hv => (h hzero K v hv).imp id .inl) hst.1 hst.2 fun _ _ => .inr
    intro hzero K v hv
    refine (ih hstep hzero K v hv).imp id ?_
    rintro ((hP | hput) | hrest)
    · exact .inl hP
    · exact .inr (.inl hput)
    · exact .inr (.inr (hst.1.state ▸ hrest))

theorem fresh_counted (P : Numbered → UInt64 → Prop) : Counted P fresh := by
  intro _ K v hv
  unfold fresh at hv
  obtain ⟨_, _, _, _, h⟩ := rebuild_indexes_writes
    { authority := { epoch := ⟨1⟩, registry_generation := ⟨1⟩, record_generation := ⟨1⟩ }, next_boot := 100, next_id := 1 }
  rw [h] at hv
  cases K <;> exact absurd hv Std.ExtTreeMap.not_mem_empty

/-! ## Assigned ids -/

section
variable {tag : IdTag} {gen : GenTag} {ρ : Type}

/-- A registration with id 0 returns the next id, unless a record stands under 0. -/
theorem registerRecord_assigned {D : Domain tag gen ρ} {x : ρ} {withId : Id tag → ρ → ρ} {id : Id tag}
    (hwith : D.withId = some withId) (hid : D.id (withId ⟨r.next_id⟩ x) = ⟨r.next_id⟩) (h0 : (D.id x).value = 0)
    (h : (registerRecord D r x env).1 = .ok id) :
    id.value = r.next_id ∨ id.value = 0 ∧ (⟨0⟩ : Id tag) ∈ D.table r := by
  have hzero : ∀ current, (D.table r)[D.id x]? = some current → D.id x = id →
      id.value = r.next_id ∨ id.value = 0 ∧ (⟨0⟩ : Id tag) ∈ D.table r := by
    rintro current hc rfl
    refine .inr ⟨h0, ?_⟩
    rw [show (⟨0⟩ : Id tag) = D.id x by rw [← h0]]
    exact holds_of_getElem? hc
  revert h
  apply registerRecord_rule D
    (P := fun o => o.1 = .ok id → id.value = r.next_id ∨ id.value = 0 ∧ (⟨0⟩ : Id tag) ∈ D.table r)
  case rejected => exact fun _ _ h => nomatch h
  case repeated => exact fun _ current hc _ _ h => hzero current hc (Except.ok.inj h)
  case stale => exact fun _ _ _ _ h => nomatch h
  case replaced => exact fun _ current hc _ h => hzero current hc (Except.ok.inj h)
  case fenced => exact fun _ _ _ _ h => nomatch h
  case inserted =>
    intro _ _ _ h
    rw [Domain.assign, hwith] at h
    simp only [if_pos h0] at h
    obtain rfl := Except.ok.inj h
    exact .inl (by rw [hid])

end

/-- A registration of an instance returns the id that it stores under. -/
theorem register_instance_id {id : ServiceInstanceId} (h : (r.register_instance scan inst env).1 = .ok id) :
    id = r.assignedId inst := by
  have hbind : ∀ s : Registry, ∀ copy : ServiceInstance, (s.bindInstance copy).1 = .ok id → id = copy.instance_id := by
    intro s copy
    apply bindInstance_rule (P := fun o => o.1 = .ok id → id = copy.instance_id)
    case refused => exact fun _ _ _ h => nomatch h
    case stored => exact fun _ _ h => (Except.ok.inj h).symm
  revert h
  apply register_instance_rule (P := fun o => o.1 = .ok id → id = r.assignedId inst)
  case rejected => exact fun _ _ h => nomatch h
  case unregistered => exact fun _ _ _ h => nomatch h
  case repeated => exact fun _ _ _ _ _ _ _ h => (Except.ok.inj h).symm
  case stale => exact fun _ _ _ _ _ _ _ _ h => nomatch h
  case superseded => exact fun _ _ _ _ _ _ => hbind _ _
  case fenced => exact fun _ _ _ _ _ h => nomatch h
  case first => exact fun _ _ _ _ => hbind _ _

/-- A call with id 0 that returns an id returns the next one, or 0 where that is stored. -/
theorem assigned_reply {e : Event} {K : Numbered} {v : UInt64} (hs : Step r e t) (hop : e.op.names = some (K, 0))
    (hreply : e.reply = .ok (.id v)) : v = r.next_id ∨ v = 0 ∧ Numbered.Holds r 0 K := by
  have hid : ∀ {tag : IdTag} {o : Outcome (Id tag)}, (o.map fun id => Reply.id id.value).1 = .ok (.id v) →
      ∃ id : Id tag, o.1 = .ok id ∧ id.value = v := by
    rintro tag ⟨_ | id, t⟩ h
    · cases h
    · exact ⟨id, rfl, Reply.id.inj (Except.ok.inj h)⟩
  have hexec : (r.exec e.scan e.op).1 = .ok (.id v) := by rw [hs.2, hreply]
  rcases hcall : e.op <;> rw [hcall] at hop hexec <;> simp only [Op.names, reduceCtorEq, Option.some.injEq, Prod.mk.injEq] at hop
  case register_runtime rt env =>
    obtain ⟨rfl, h0⟩ := hop
    obtain ⟨id, h, rfl⟩ := hid hexec
    exact registerRecord_assigned (D := runtimes_) rfl rfl h0 h
  case register_endpoint ep env =>
    obtain ⟨rfl, h0⟩ := hop
    obtain ⟨id, h, rfl⟩ := hid hexec
    exact registerRecord_assigned (D := endpoints_) rfl rfl h0 h
  case register_capability cap env =>
    obtain ⟨rfl, h0⟩ := hop
    obtain ⟨id, h, rfl⟩ := hid hexec
    exact registerRecord_assigned (D := capabilities_) rfl rfl h0 h
  case register_backend bd env =>
    obtain ⟨rfl, h0⟩ := hop
    obtain ⟨id, h, rfl⟩ := hid hexec
    exact registerRecord_assigned (D := backends_) rfl rfl h0 h
  case register_device dd env =>
    obtain ⟨rfl, h0⟩ := hop
    obtain ⟨id, h, rfl⟩ := hid hexec
    exact registerRecord_assigned (D := devices_) rfl rfl h0 h
  case register_instance inst env =>
    obtain ⟨rfl, h0⟩ := hop
    obtain ⟨id, h, rfl⟩ := hid hexec
    rw [register_instance_id h, assignedId, if_pos h0]
    exact .inl rfl
  case acquire_lease lease env =>
    obtain ⟨rfl, h0⟩ := hop
    obtain ⟨id, h, rfl⟩ := hid hexec
    by_cases ha : r.Accepts env
    · rw [acquire_lease, authorized_accepted ha] at h
      simp only [if_pos h0] at h
      exact .inl (congrArg (·.value) (Except.ok.inj h).symm)
    · obtain ⟨e', he⟩ := authorized_rejected ha (_ : Outcome LeaseId)
      rw [acquire_lease, he] at h
      cases h
  case create_tombstone tomb env =>
    obtain ⟨rfl, h0⟩ := hop
    obtain ⟨id, h, rfl⟩ := hid hexec
    by_cases ha : r.Accepts env
    · rw [create_tombstone, authorized_accepted ha] at h
      simp only [if_pos h0] at h
      exact .inl (congrArg (·.value) (Except.ok.inj h).symm)
    · obtain ⟨e', he⟩ := authorized_rejected ha (_ : Outcome TombstoneId)
      rw [create_tombstone, he] at h
      cases h
  case supersede old_id inst env =>
    rcases ho : r.supersede e.scan old_id inst env with ⟨_ | _, u⟩ <;> simp [exec, ho, Outcome.map, Except.map] at hexec

/-- In every run of calls that take no id from a wrapped counter, an id that a call
takes from the counter and returns was free, unless an earlier call put a record of
the kind under it, or under 0, itself. -/
theorem assigned_id_fresh {e : Event} {es : List Event} {K : Numbered} {v : UInt64}
    (hr : Run (Guarded Step NoOverflow) fresh es r) (hs : Step r e t) (hroom : NoOverflow r e)
    (hop : e.op.names = some (K, 0)) (hreply : e.reply = .ok (.id v)) (hnext : ¬ PutIn fresh es K r.next_id)
    (hzero : ¬ PutIn fresh es K 0) : ¬ Numbered.Holds r v K := by
  have hcounted := Counted.run hr (fresh_counted fun _ _ => False) (hroom K hop) K
  intro hv
  rcases assigned_reply hs hop hreply with rfl | ⟨rfl, _⟩
  · rcases hcounted _ hv with ⟨_, hlt⟩ | hfalse | hput
    · exact absurd hlt (UInt64.lt_irrefl _)
    · exact hfalse
    · exact hnext hput
  · rcases hcounted _ hv with ⟨hne, _⟩ | hfalse | hput
    · exact hne rfl
    · exact hfalse
    · exact hzero hput

/-- Calls that name no id of the kind and load nothing put nothing. -/
theorem not_putIn {K : Numbered} {v : UInt64} {es : List Event}
    (h : ∀ e ∈ es, (∀ data, e.op ≠ .load_from data) ∧ e.op.names ≠ some (K, v)) (s : Registry) : ¬ PutIn s es K v := by
  induction es generalizing s with
  | nil => exact fun hput => hput
  | cons e es ih =>
    rw [List.forall_mem_cons] at h
    rintro (⟨_, ⟨hop, _⟩ | ⟨himage, _⟩⟩ | hput)
    · exact h.1.2 hop
    · exact Event.noLoad.class_ne h.1.1 himage
    · exact ih h.2 _ hput

/-- The first endpoint of the sample takes the first id. -/
theorem assigned_id_fresh_endpoint :
    ¬ Numbered.Holds Sample.registry 1 .endpoint ∧
      (Sample.registry.call (.register_endpoint { generation := ⟨1⟩ } Sample.env)).reply = .ok (.id 1) := by
  obtain ⟨es, hr⟩ := run_after fresh (Q := fun op => ((∀ data, op ≠ .load_from data) ∧
    ∀ v, op.names ≠ some (.endpoint, v)) ∧ ∀ K, op.names ≠ some (K, 0)) Sample.setup (by
      simp [Sample.setup, Op.names, Sample.incarnation])
  have hreply : (Sample.registry.call (.register_endpoint { generation := ⟨1⟩ } Sample.env)).reply = .ok (.id 1) := by
    have hid : (Sample.registry.register_endpoint { generation := ⟨1⟩ } Sample.env).1 = .ok ⟨1⟩ := by decide +kernel
    simp [call, exec, hid, Except.map]
  have hput : ∀ v, ¬ PutIn fresh es .endpoint v := fun v =>
    not_putIn (fun e he => (hr.guard_mem (Q := fun e => (∀ data, e.op ≠ .load_from data) ∧
      e.op.names ≠ some (.endpoint, v)) (fun _ _ h => ⟨h.1.1, h.1.2 v⟩)) e he) fresh
  refine ⟨assigned_id_fresh (hr.mono fun s e u h => ⟨h.1, fun K hK => absurd hK (h.2.2 K)⟩) (step_call _ _)
    (fun K _ => ?_) rfl hreply (hput _) (hput 0), hreply⟩
  exact show Sample.registry.next_id ≠ 0 by decide +kernel

/-- The counter comes to an id that a caller has taken. -/
theorem assigned_id_taken :
    let s := fresh.after [.adopt_worker ⟨1⟩, .register_endpoint { endpoint_id := ⟨1⟩, generation := ⟨7⟩ } Sample.env]
    let o := s.register_endpoint { generation := ⟨1⟩ } Sample.env
    s.Reachable ∧ o.1 = .ok ⟨1⟩ ∧ Numbered.Holds s 1 .endpoint ∧
      s.endpoints[(⟨1⟩ : EndpointId)]?.map (·.generation.value) = some 7 ∧
      o.2.endpoints[(⟨1⟩ : EndpointId)]?.map (·.generation.value) = some 1 := by
  intro s o
  refine ⟨(ReachableWithoutLoad.after (.refl _) (by simp)).reachable, by decide +kernel, ?_, by decide +kernel,
    by decide +kernel⟩
  show (⟨1⟩ : EndpointId) ∈ s.endpoints
  decide +kernel

/-! ## Instances of other services -/

/-- Binding an instance leaves every record, or returns and stores under its id. -/
theorem bindInstance_spares (r : Registry) (copy : ServiceInstance) (k : ServiceInstanceId) :
    (r.bindInstance copy).2.instances[k]? = r.instances[k]? ∨ k = copy.instance_id ∧ (r.bindInstance copy).Returns := by
  have hclaims := claimEndpoints_instances copy.instance_id copy.endpoints r
  apply bindInstance_rule (P := fun o => o.2.instances[k]? = r.instances[k]? ∨ k = copy.instance_id ∧ o.Returns)
  case refused =>
    intro e t h
    rw [h] at hclaims
    exact .inl (congrArg (·[k]?) hclaims)
  case stored =>
    intro t h
    rw [h] at hclaims
    have hkept : t.instances = r.instances := hclaims
    rw [storeInstance_instances, hkept]
    split_ifs with hk
    · exact .inr ⟨hk.symm, Outcome.returns_ok _ _⟩
    · exact .inl rfl

/-- A registration leaves an instance of another service, or is admissible and stores
over it. -/
theorem register_instance_other {k : ServiceInstanceId} {x : ServiceInstance} (hx : r.instances[k]? = some x)
    (hother : x.service_id ≠ inst.service_id) :
    (r.register_instance scan inst env).2.instances[k]? = some x ∨
      k = r.assignedId inst ∧ r.Accepts env ∧ r.Admissible scan inst := by
  apply register_instance_rule (P := fun o => o.2.instances[k]? = some x ∨
    k = r.assignedId inst ∧ r.Accepts env ∧ r.Admissible scan inst)
  case rejected => exact fun _ _ => .inl hx
  case unregistered => exact fun _ _ _ => .inl hx
  case repeated => exact fun _ _ _ _ _ _ _ => .inl hx
  case stale => exact fun _ _ _ _ _ _ _ _ => .inl hx
  case fenced => exact fun _ _ _ _ _ => .inl hx
  case first =>
    intro ha hs hc hcov
    rcases bindInstance_spares { r with next_id := r.assignedNext inst } { inst with instance_id := r.assignedId inst } k
      with h | ⟨hk, hreturns⟩
    · exact .inl (h.trans hx)
    · refine .inr ⟨hk, ha, hs, ?_⟩
      rw [hc]
      exact ⟨hcov, bindInstance_returns_iff.1 hreturns⟩
  case superseded =>
    intro ha hs id current hc hlt
    rcases bindInstance_spares ({ r with next_id := r.assignedNext inst }.supersedeCurrent id current)
      { inst with instance_id := r.assignedId inst } k with h | ⟨hk, hreturns⟩
    · -- the instance that is superseded is one of the service
      rcases getElem?_insert_cases r.instances id k { current with lifecycle := Lifecycle.SUPERSEDED } with
        ⟨rfl, _⟩ | ⟨_, hkept⟩
      · have hcurrent := currentInstance_some hc
        obtain rfl : x = current := Option.some.inj (hx.symm.trans hcurrent.1)
        exact absurd hcurrent.2.1 hother
      · exact .inl (h.trans (hkept.trans hx))
    · refine .inr ⟨hk, ha, hs, ?_⟩
      rw [hc]
      exact ⟨hlt, bindInstance_returns_iff.1 hreturns⟩

/-- An admissible registration stores an instance of its service under its id. -/
theorem register_instance_stores (ha : r.Accepts env) (hadm : r.Admissible scan inst) :
    ∃ y, (r.register_instance scan inst env).2.instances[r.assignedId inst]? = some y ∧ y.service_id = inst.service_id := by
  rw [register_instance_admitted ha hadm]
  exact ⟨_, (storeInstance_instances _ _ _).trans (if_pos rfl), rfl⟩

/-- A registration leaves every instance of every other service exactly if it is not
one that is admissible and stored over one of them. -/
theorem register_instance_spares_iff (r : Registry) (scan : List ServiceInstanceId) (inst : ServiceInstance)
    (env : AuthorityEnvelope) :
    (∀ (k : ServiceInstanceId) (x : ServiceInstance), r.instances[k]? = some x → x.service_id ≠ inst.service_id →
      (r.register_instance scan inst env).2.instances[k]? = some x) ↔
    ¬ (r.Accepts env ∧ r.Admissible scan inst ∧
      ∃ x, r.instances[r.assignedId inst]? = some x ∧ x.service_id ≠ inst.service_id) := by
  constructor
  · rintro h ⟨ha, hadm, x, hx, hother⟩
    obtain ⟨y, hy, hservice⟩ := register_instance_stores ha hadm
    obtain rfl : x = y := Option.some.inj ((h _ x hx hother).symm.trans hy)
    exact hother hservice
  · intro h k x hx hother
    refine (register_instance_other hx hother).resolve_right ?_
    rintro ⟨rfl, ha, hadm⟩
    exact h ⟨ha, hadm, x, hx, hother⟩

/-- An instance of service 4 takes the id, and the place, of the instance of service 3. -/
theorem register_instance_overwrites :
    let s := Sample.registry.after [.register_service { Sample.service with service_id := ⟨4⟩ } Sample.env]
    let t := s.after [.register_instance { Sample.incarnation 5 1 with service_id := ⟨4⟩ } Sample.env]
    s.Reachable ∧ s.instances[(⟨5⟩ : ServiceInstanceId)]?.map (·.service_id) = some ⟨3⟩ ∧
      t.instances[(⟨5⟩ : ServiceInstanceId)]?.map (·.service_id) = some ⟨4⟩ := by
  intro s t
  exact ⟨(Sample.registry_reachable.after (by simp)).reachable, by decide +kernel, by decide +kernel⟩

end Registry

end RuntimeRegistry
