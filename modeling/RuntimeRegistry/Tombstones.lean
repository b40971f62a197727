import RuntimeRegistry.Atomicity
import RuntimeRegistry.Footprints
/-!
# Tombstones

A tombstone fences the generations of its target up to a floor. What the stored
tombstones cover together is the purpose of the table: a set of generations per
target, downward closed. Creating a tombstone under a stored id overwrites it, so
the set can shrink; and not every registration asks it.
-/
open Lib

namespace RuntimeRegistry

/-- The tombstone `a` covers everything that `b` covers. -/
def TombstoneRecord.Fences (a b : TombstoneRecord) : Prop :=
  a.target_kind = b.target_kind ∧ a.target_text = b.target_text ∧ b.generation_floor.value ≤ a.generation_floor.value

instance (a b : TombstoneRecord) : Decidable (a.Fences b) := inferInstanceAs (Decidable (_ ∧ _))

namespace Registry

variable {r : Registry} {env : AuthorityEnvelope} {tomb : TombstoneRecord}

/-! ## Coverage -/

theorem covers_iff {target_kind target_text : Text} {g : UInt64} : covers tomb target_kind target_text g ↔
    tomb.target_kind = target_kind ∧ tomb.target_text = target_text ∧ g ≤ tomb.generation_floor.value := by
  simp [covers, and_assoc]

theorem covered_by_tombstone_iff {target_kind target_text : Text} {g : UInt64} :
    r.covered_by_tombstone target_kind target_text g ↔
      ∃ (id : TombstoneId) (tomb : TombstoneRecord), r.tombstones[id]? = some tomb ∧ covers tomb target_kind target_text g := by
  simp [covered_by_tombstone, Std.ExtTreeMap.mem_toList_iff_getElem?_eq_some]

theorem covered_by_tombstone_congr {t : Registry} (h : t.tombstones = r.tombstones) :
    t.covered_by_tombstone = r.covered_by_tombstone := by
  unfold covered_by_tombstone
  rw [h]

theorem covers_of_fences {a b : TombstoneRecord} {target_kind target_text : Text} {g : UInt64} (h : a.Fences b)
    (hb : covers b target_kind target_text g) : covers a target_kind target_text g := by
  rw [covers_iff] at hb ⊢
  exact ⟨h.1.trans hb.1, h.2.1.trans hb.2.1, UInt64.le_trans hb.2.2 h.2.2⟩

theorem fences_iff {a b : TombstoneRecord} :
    a.Fences b ↔ covers a b.target_kind b.target_text b.generation_floor.value := covers_iff.symm

/-! ## Creating a tombstone -/

/-- The id a tombstone is stored under: its own, or the next one for 0. -/
def tombstoneSlot (r : Registry) (tomb : TombstoneRecord) : TombstoneId :=
  if tomb.tombstone_id.value = 0 then ⟨r.next_id⟩ else tomb.tombstone_id

theorem create_tombstone_tombstones (ha : r.Accepts env) : (r.create_tombstone tomb env).2.tombstones =
    r.tombstones.insert (r.tombstoneSlot tomb) { tomb with tombstone_id := r.tombstoneSlot tomb } := by
  rw [create_tombstone, authorized_accepted ha]
  unfold tombstoneSlot
  by_cases h : tomb.tombstone_id.value = 0
  · simp only [if_pos h]; rfl
  · simp only [if_neg h]; rfl

/-- What the call overwrites, if anything, stays covered: by the new tombstone or
by another stored one. -/
def Outlives (r : Registry) (tomb : TombstoneRecord) : Prop :=
  ∀ old, r.tombstones[r.tombstoneSlot tomb]? = some old →
    tomb.Fences old ∨ ∃ (id : TombstoneId) (other : TombstoneRecord), id ≠ r.tombstoneSlot tomb ∧ r.tombstones[id]? = some other ∧ other.Fences old

/-- A creation keeps the coverage exactly if what it overwrites outlives it. -/
theorem create_tombstone_keeps_iff :
    (∀ target_kind target_text g, r.covered_by_tombstone target_kind target_text g →
      (r.create_tombstone tomb env).2.covered_by_tombstone target_kind target_text g) ↔
    (r.Accepts env → r.Outlives tomb) := by
  by_cases ha : r.Accepts env
  · have hnew : ∀ id x, (r.create_tombstone tomb env).2.tombstones[id]? = some x ↔
        (id = r.tombstoneSlot tomb ∧ { tomb with tombstone_id := r.tombstoneSlot tomb } = x) ∨
          id ≠ r.tombstoneSlot tomb ∧ r.tombstones[id]? = some x := by
      intro id x
      rw [create_tombstone_tombstones ha, Std.ExtTreeMap.getElem?_insert]
      by_cases h : id = r.tombstoneSlot tomb
      · simp [h]
      · have hne : ¬ r.tombstoneSlot tomb = id := fun he => h he.symm
        simp [h, hne]
    simp only [ha, true_implies]
    constructor
    · intro hkeep old hold
      have hcov := hkeep old.target_kind old.target_text old.generation_floor.value
        (covered_by_tombstone_iff.2 ⟨_, old, hold, covers_iff.2 ⟨rfl, rfl, UInt64.le_refl _⟩⟩)
      obtain ⟨id, x, hx, hc⟩ := covered_by_tombstone_iff.1 hcov
      rcases (hnew id x).1 hx with ⟨-, rfl⟩ | ⟨hne, hx⟩
      · exact .inl (fences_iff.2 hc)
      · exact .inr ⟨id, x, hne, hx, fences_iff.2 hc⟩
    · intro hout kind txt g hcov
      obtain ⟨id, x, hx, hc⟩ := covered_by_tombstone_iff.1 hcov
      rw [covered_by_tombstone_iff]
      by_cases hid : id = r.tombstoneSlot tomb
      · rcases hout x (hid ▸ hx) with hf | ⟨id', other, hne, ho, hf⟩
        · exact ⟨_, _, (hnew _ _).2 (.inl ⟨rfl, rfl⟩), covers_of_fences (a := { tomb with tombstone_id := _ }) hf hc⟩
        · exact ⟨id', other, (hnew _ _).2 (.inr ⟨hne, ho⟩), covers_of_fences hf hc⟩
      · exact ⟨id, x, (hnew _ _).2 (.inr ⟨hid, hx⟩), hc⟩
  · obtain ⟨e, he⟩ := authorized_rejected ha (_ : Outcome TombstoneId)
    rw [create_tombstone, he]
    simp [ha]

/-- A creation of the call overwrites nothing that it does not outlive. -/
def KeepsCoverage (r : Registry) (op : Op) : Prop :=
  ∀ tomb env, op = .create_tombstone tomb env → r.Accepts env → r.Outlives tomb

theorem covered_by_tombstone_step {scan : List ServiceInstanceId} {op : Op} (hop : op.class ≠ .image)
    (hkeep : r.KeepsCoverage op) {target_kind target_text : Text} {g : UInt64}
    (h : r.covered_by_tombstone target_kind target_text g) :
    (r.exec scan op).2.covered_by_tombstone target_kind target_text g := by
  by_cases hc : op.class = .tombstone
  · cases op <;> simp only [Op.class, reduceCtorEq] at hc
    case create_tombstone tomb env =>
      exact create_tombstone_keeps_iff.2 (hkeep tomb env rfl) _ _ _ h
  · rwa [covered_by_tombstone, exec_tombstones scan op hc hop]

/-- Coverage never shrinks in a run whose creations outlive what they overwrite. -/
theorem covered_by_tombstone_lasts {s t : Registry} {es : List Event}
    (hr : Run (Guarded Step fun r e => e.noLoad ∧ r.KeepsCoverage e.op) s es t) {target_kind target_text : Text}
    {g : UInt64} (h : s.covered_by_tombstone target_kind target_text g) :
    t.covered_by_tombstone target_kind target_text g := by
  refine hr.inv (fun r => r.covered_by_tombstone target_kind target_text g) (fun r e r' hcov hst => ?_) h
  rw [hst.1.state]
  exact covered_by_tombstone_step hst.2.1.class_ne hst.2.2 hcov

/-- A tombstone on service 3. -/
def fence (id floor : UInt64) : TombstoneRecord where
  tombstone_id := ⟨id⟩
  target_kind := text "ServiceId"
  target_text := text "3"
  generation_floor := ⟨floor⟩

theorem covered_by_tombstone_lasts_second_fence :
    ((Sample.registry.after [.create_tombstone (fence 7 5) Sample.env]).exec [⟨5⟩]
      (.create_tombstone (fence 8 2) Sample.env)).2.covered_by_tombstone (text "ServiceId") (text "3") 4 := by
  have hstep : Step (Sample.registry.after [.create_tombstone (fence 7 5) Sample.env])
      ⟨.create_tombstone (fence 8 2) Sample.env, [⟨5⟩], _⟩ _ := ⟨by decide +kernel, rfl⟩
  refine covered_by_tombstone_lasts (.single ⟨hstep, fun _ => nofun, ?_⟩) (by decide +kernel)
  rintro _ _ ⟨⟩ - old hold
  have hnone : (Sample.registry.after [.create_tombstone (fence 7 5) Sample.env]).tombstones[
    (⟨8⟩ : TombstoneId)]? = none := by decide +kernel
  exact absurd (hnone.symm.trans hold) nofun

/-- A tombstone stored under the id of another uncovers what that one covered. -/
theorem create_tombstone_uncovers :
    let s := Sample.registry.after [.create_tombstone (fence 7 5) Sample.env]
    let t := s.after [.create_tombstone { fence 7 5 with target_text := text "4" } Sample.env]
    s.ReachableWithoutLoad ∧ (∃ es, Run (Guarded Step fun _ e => e.noLoad) s es t) ∧
      s.covered_by_tombstone (text "ServiceId") (text "3") 5 = true ∧
      t.covered_by_tombstone (text "ServiceId") (text "3") 5 = false := by
  intro s t
  refine ⟨Sample.registry_reachable.after (by simp), run_after s (Q := fun op => ∀ data, op ≠ .load_from data) _ (by simp),
    by decide +kernel, by decide +kernel⟩

/-! ## Registering under a tombstone -/

section
variable {tag : IdTag} {gen : GenTag} {ρ : Type}

/-- The registration stores a record that a tombstone covers, in one of two ways:
it replaces an older generation, which is not checked, or it brings id 0, is
checked under that id, and changes the record at the id that it is given. -/
def Domain.Evades (D : Domain tag gen ρ) (target_kind : Text) (r : Registry) (x : ρ) (env : AuthorityEnvelope) : Prop :=
  r.Accepts env ∧
  match (D.table r)[D.id x]? with
  | some current => D.generation current < D.generation x ∧
      r.covered_by_tombstone target_kind (to_string (D.id x).value) (D.generation x).value
  | none => (D.id x).value = 0 ∧
      ¬ r.covered_by_tombstone target_kind (to_string (D.id x).value) (D.generation x).value ∧
      r.covered_by_tombstone target_kind (to_string r.next_id) (D.generation x).value ∧
      ∃ withId ∈ D.withId, (D.table r)[(⟨r.next_id⟩ : Id tag)]? ≠ some (withId ⟨r.next_id⟩ x)

/-- Where the registration returns and changes the record, no tombstone of `t`
covers the target. -/
def Domain.Respects (D : Domain tag gen ρ) (target_kind : Text) (r : Registry) (x : ρ) (o : Outcome (Id tag)) : Prop :=
  ∀ id t, o = (.ok id, t) → (D.table t)[id]? ≠ (D.table r)[id]? →
    ¬ t.covered_by_tombstone target_kind (to_string id.value) (D.generation x).value

theorem Domain.respects_ok {D : Domain tag gen ρ} {target_kind : Text} {x : ρ} {id : Id tag} {t : Registry}
    (ht : t.tombstones = r.tombstones) : D.Respects target_kind r x (.ok id, t) ↔
      ((D.table t)[id]? ≠ (D.table r)[id]? → ¬ r.covered_by_tombstone target_kind (to_string id.value) (D.generation x).value) := by
  unfold Domain.Respects
  constructor
  · intro h
    have := h id t rfl
    rwa [covered_by_tombstone_congr ht] at this
  · rintro h _ _ ⟨⟩
    rwa [covered_by_tombstone_congr ht]

theorem registerRecord_respects_iff {D : Domain tag gen ρ} {f : Fence} {x : ρ} (hD : D.Lawful) (hf : D.fence = some f)
    (htomb : (registerRecord D r x env).2.tombstones = r.tombstones) :
    D.Respects f.target_kind r x (registerRecord D r x env) ↔ ¬ D.Evades f.target_kind r x env := by
  have herror : ∀ e t, D.Respects f.target_kind r x (.error e, t) := fun e t id t' h => nomatch h
  revert htomb
  refine registerRecord_rule D
    (P := fun o => o.2.tombstones = r.tombstones → (D.Respects f.target_kind r x o ↔ ¬ D.Evades f.target_kind r x env)) ?_ ?_ ?_ ?_ ?_ ?_
  · exact fun e ha _ => iff_of_true (herror e r) fun h => ha h.1
  · intro ha current hc hgen _ htomb
    refine iff_of_true ((Domain.respects_ok htomb).2 fun hne => absurd rfl hne) fun h => ?_
    simp [Domain.Evades, hc, hgen] at h
  · intro ha current hc hle _
    refine iff_of_true (herror _ _) fun h => ?_
    simp only [Domain.Evades, hc] at h
    exact absurd h.2.1 hle.not_gt
  · intro ha current hc hlt htomb
    have hchanged : (D.table (D.commit x (D.replace current x r)).2)[D.id x]? ≠ (D.table r)[D.id x]? := by
      rw [hD.table_commit, hD.table_replace, hc, Std.ExtTreeMap.getElem?_insert_self, ne_eq, Option.some.injEq]
      rintro rfl
      exact lt_irrefl _ hlt
    refine (Domain.respects_ok htomb).trans ((forall_prop_of_true hchanged).trans ?_)
    simp only [Domain.Evades, hc, ha, hlt, true_and]
  · intro ha hc f' hfenced _
    refine iff_of_true (herror _ _) fun h => ?_
    simp only [Domain.fenced, hf, Option.filter_some, Option.ite_none_right_eq_some] at hfenced
    simp only [Domain.Evades, hc] at h
    exact h.2.2.1 hfenced.1
  · intro ha hc hfenced htomb
    have hown : ¬ r.covered_by_tombstone f.target_kind (to_string (D.id x).value) (D.generation x).value := by
      simpa [Domain.fenced, hf, Option.filter_some] using hfenced
    refine (Domain.respects_ok htomb).trans ?_
    rw [hD.table_commit, hD.table_insert, Std.ExtTreeMap.getElem?_insert_self]
    simp only [Domain.Evades, hc, ha, hown, true_and]
    rcases hw : D.withId with _ | withId
    · simp [Domain.assign, hw, hown]
    by_cases h0 : (D.id x).value = 0
    · have hid : D.id (withId ⟨r.next_id⟩ x) = ⟨r.next_id⟩ := hD.id_withId withId hw _ _
      simp only [Domain.assign, hw, h0, if_true, hid]
      rw [ne_comm]
      simp only [Option.mem_def, Option.some.injEq, exists_eq_left']
      tauto
    · simp [Domain.assign, hw, hown, h0]

end

/-! The five registrations that a tombstone should fence. -/

/-- A higher generation of a service that a tombstone covers supersedes the
current instance: only a first registration asks the tombstones. -/
def SupersedesFenced (r : Registry) (scan : List ServiceInstanceId) (inst : ServiceInstance) (env : AuthorityEnvelope) :
    Prop :=
  r.Accepts env ∧ inst.service_id ∈ r.services ∧
  r.covered_by_tombstone (text "ServiceId") (to_string inst.service_id.value) inst.instance_generation.value ∧
  ∃ id current, r.currentInstance scan inst.service_id = some (id, current) ∧
    current.instance_generation < inst.instance_generation ∧
    ∀ eid ∈ inst.endpoints, (r.supersedeCurrent id current).claimable (r.assignedId inst) eid

theorem InstanceWrites.tombstones {t : Registry} (h : InstanceWrites r t) : t.tombstones = r.tombstones := by
  obtain ⟨_, _, _, _, _, _, _, _, _, _, _, _, rfl⟩ := h
  rfl

theorem register_instance_respects_iff {scan : List ServiceInstanceId} {inst : ServiceInstance}
    (hscan : scan.Perm r.instances.keys) :
    (∀ id t, r.register_instance scan inst env = (.ok id, t) → t.instances[id]? ≠ r.instances[id]? →
      ¬ t.covered_by_tombstone (text "ServiceId") (to_string inst.service_id.value) inst.instance_generation.value) ↔
    ¬ r.SupersedesFenced scan inst env := by
  refine register_instance_rule (P := fun o => (∀ id t, o = (.ok id, t) → t.instances[id]? ≠ r.instances[id]? →
    ¬ t.covered_by_tombstone _ _ _) ↔ ¬ r.SupersedesFenced scan inst env) ?_ ?_ ?_ ?_ ?_ ?_ ?_
  · exact fun e ha => iff_of_true (fun _ _ h => nomatch h) fun h => ha h.1
  · exact fun _ hs e => iff_of_true (fun _ _ h => nomatch h) fun h => hs h.2.1
  · intro _ _ id current hc hgen _
    refine iff_of_true ?_ fun ⟨_, _, _, id', current', hc', hlt, _⟩ => ?_
    · rintro _ _ ⟨⟩ hne
      exact absurd rfl hne
    · cases hc.symm.trans hc'
      exact hlt.ne hgen.symm
  · intro _ _ id current hc hle _ e
    refine iff_of_true (fun _ _ h => nomatch h) fun ⟨_, _, _, id', current', hc', hlt, _⟩ => ?_
    cases hc.symm.trans hc'
    exact hle.not_gt hlt
  · intro ha hs id current hc hlt
    have hok := claimEndpoints_ok_iff (r.assignedId inst) inst.endpoints
      ({ r with next_id := r.assignedNext inst }.supersedeCurrent id current)
    refine bindInstance_rule (P := fun o => (∀ id t, o = (.ok id, t) → t.instances[id]? ≠ r.instances[id]? →
      ¬ t.covered_by_tombstone _ _ _) ↔ ¬ r.SupersedesFenced scan inst env) (fun e t h => ?_) fun t h => ?_
    · refine iff_of_true (fun _ _ h => nomatch h) fun ⟨_, _, _, id', current', hc', _, hclaim⟩ => ?_
      cases hc.symm.trans hc'
      obtain ⟨t', ht'⟩ := hok.2 hclaim
      cases h.symm.trans ht'
    · have hw := InstanceWrites.claimEndpoints ({ r with next_id := r.assignedNext inst }.supersedeCurrent id current)
        (r.assignedId inst) inst.endpoints
      rw [h] at hw
      have htomb := (InstanceWrites.setNextId r _).trans (.trans (.supersedeCurrent _ id current)
        (hw.trans (.storeInstance t { inst with instance_id := r.assignedId inst }))) |>.tombstones
      -- no current instance has the new generation, so the stored one is not a repeat
      have hchanged : (t.storeInstance { inst with instance_id := r.assignedId inst }).instances[r.assignedId inst]? ≠
          r.instances[r.assignedId inst]? := by
        rw [storeInstance_instances, if_pos rfl]
        intro hstored
        exact (currentInstance_max hscan hc ⟨hstored.symm, rfl, historical_reclassify t _⟩).not_gt hlt
      constructor
      · intro hresp ⟨_, _, hcov, _⟩
        refine hresp _ _ rfl hchanged ?_
        rwa [covered_by_tombstone_congr htomb]
      · rintro hnot _ _ ⟨⟩ - hcov
        rw [covered_by_tombstone_congr htomb] at hcov
        exact hnot ⟨ha, hs, hcov, id, current, hc, hlt, hok.1 ⟨t, h⟩⟩
  · exact fun _ _ hc _ e => iff_of_true (fun _ _ h => nomatch h)
      fun ⟨_, _, _, id', current', hc', _⟩ => nomatch hc.symm.trans hc'
  · intro _ _ hc hcov
    refine iff_of_true (fun id t ht _ => ?_) fun h => hcov h.2.2.1
    have hw := InstanceWrites.bindInstance { r with next_id := r.assignedNext inst }
      { inst with instance_id := r.assignedId inst }
    rw [ht] at hw
    rwa [covered_by_tombstone_congr ((InstanceWrites.setNextId r _).trans hw).tombstones]

/-- A registration returns the record's own id where the domain assigns none. -/
theorem registerRecord_own_id {tag : IdTag} {gen : GenTag} {ρ : Type} {D : Domain tag gen ρ} {x : ρ}
    (hD : D.withId = none) {id : Id tag} {t : Registry} (h : registerRecord D r x env = (.ok id, t)) : id = D.id x := by
  revert h
  have hassign : (D.assign x r).1 = x := by simp [Domain.assign, hD]
  refine registerRecord_rule D (P := fun o => o = (.ok id, t) → id = D.id x) ?_ ?_ ?_ ?_ ?_ ?_
  · exact fun _ _ h => nomatch h
  · rintro _ _ _ _ _ ⟨⟩; rfl
  · exact fun _ _ _ _ h => nomatch h
  · rintro _ _ _ _ ⟨⟩; rfl
  · exact fun _ _ _ _ h => nomatch h
  · rintro _ _ _ ⟨⟩
    rw [hassign]

theorem register_service_respects_iff {svc : ServiceDescriptor} :
    (∀ t, r.register_service svc env = (.ok (), t) → t.services[svc.service_id]? ≠ r.services[svc.service_id]? →
      ¬ t.covered_by_tombstone (text "ServiceId") (to_string svc.service_id.value) svc.generation.value) ↔
    ¬ services_.Evades (text "ServiceId") r svc env := by
  rw [← registerRecord_respects_iff services_lawful rfl]
  · unfold register_service Domain.Respects
    rcases h : registerRecord services_ r svc env with ⟨e | id, t⟩
    · simp [Outcome.void]
    · obtain rfl := registerRecord_own_id rfl h
      simp only [Outcome.void, Outcome.andThen_ok]
      constructor
      · rintro hs _ _ ⟨⟩
        exact hs t rfl
      · rintro hs _ ⟨⟩
        exact hs _ t rfl
  · have := exec_tombstones (r := r) [] (.register_service svc env) (by simp [Op.class]) (by simp [Op.class])
    simpa [exec, register_service] using this

/-- What the five registrations owe the tombstones, and when they pay: a record
or a service that a tombstone covers is stored exactly where it replaces an
older generation, or is given an id that was not asked about. -/
theorem registrations_respect_tombstones_iff (r : Registry) (env : AuthorityEnvelope) {scan : List ServiceInstanceId}
    (hscan : scan.Perm r.instances.keys) :
    (∀ svc, (∀ t, r.register_service svc env = (.ok (), t) →
        t.services[svc.service_id]? ≠ r.services[svc.service_id]? →
        ¬ t.covered_by_tombstone (text "ServiceId") (to_string svc.service_id.value) svc.generation.value) ↔
      ¬ services_.Evades (text "ServiceId") r svc env) ∧
    (∀ rt, runtimes_.Respects (text "RuntimeInstanceId") r rt (r.register_runtime rt env) ↔
      ¬ runtimes_.Evades (text "RuntimeInstanceId") r rt env) ∧
    (∀ ep, endpoints_.Respects (text "EndpointId") r ep (r.register_endpoint ep env) ↔
      ¬ endpoints_.Evades (text "EndpointId") r ep env) ∧
    (∀ cap, capabilities_.Respects (text "CapabilityId") r cap (r.register_capability cap env) ↔
      ¬ capabilities_.Evades (text "CapabilityId") r cap env) ∧
    ∀ inst, (∀ id t, r.register_instance scan inst env = (.ok id, t) → t.instances[id]? ≠ r.instances[id]? →
        ¬ t.covered_by_tombstone (text "ServiceId") (to_string inst.service_id.value) inst.instance_generation.value) ↔
      ¬ r.SupersedesFenced scan inst env := by
  refine ⟨fun _ => register_service_respects_iff, fun rt => ?_, fun ep => ?_, fun cap => ?_,
    fun _ => register_instance_respects_iff hscan⟩
  · exact registerRecord_respects_iff runtimes_lawful rfl
      (exec_tombstones [] (.register_runtime rt env) (by simp [Op.class]) (by simp [Op.class]))
  · exact registerRecord_respects_iff endpoints_lawful rfl
      (exec_tombstones [] (.register_endpoint ep env) (by simp [Op.class]) (by simp [Op.class]))
  · exact registerRecord_respects_iff capabilities_lawful rfl
      (exec_tombstones [] (.register_capability cap env) (by simp [Op.class]) (by simp [Op.class]))

theorem registrations_respect_tombstones_new_endpoint :
    endpoints_.Respects (text "EndpointId") Sample.registry { endpoint_id := ⟨9⟩ }
      (Sample.registry.register_endpoint { endpoint_id := ⟨9⟩ } Sample.env) := by
  refine ((registrations_respect_tombstones_iff Sample.registry Sample.env (.refl _)).2.2.1 { endpoint_id := ⟨9⟩ }).2
    fun ⟨_, h⟩ => ?_
  have hnone : Sample.registry.endpoints[(⟨9⟩ : EndpointId)]? = none := by decide +kernel
  split at h
  · rename_i hsome
    cases hnone.symm.trans hsome
  · exact absurd h.1 (by decide)

/-- A newer generation of a service replaces the stored one under a tombstone that
covers both. -/
theorem register_service_under_tombstone :
    let s := Sample.registry.after [.create_tombstone (fence 7 5) Sample.env]
    let o := s.register_service { Sample.service with generation := ⟨2⟩ } Sample.env
    s.Reachable ∧ o.1.isOk = true ∧ o.2.services[(⟨3⟩ : ServiceId)]? ≠ s.services[(⟨3⟩ : ServiceId)]? ∧
      o.2.covered_by_tombstone (text "ServiceId") (to_string 3) 2 = true := by
  intro s o
  exact ⟨Sample.registry_reachable.reachable.after _, by decide +kernel, by decide +kernel, by decide +kernel⟩

end Registry

end RuntimeRegistry
