import RuntimeRegistry.Lib.Journals
import RuntimeRegistry.References
import RuntimeRegistry.Retries
import RuntimeRegistry.Runtimes
/-!
# The histories of the records

Endpoints, capabilities, runtime instances and service instances have a history. An
endpoint or a capability enters it when it is first registered and when it is
replaced, a service instance whenever it is stored. A runtime instance enters it when
it is first registered only, so an upgrade of an upgraded record loses it.
-/
open Lib

namespace RuntimeRegistry

namespace Registry

def endpointJournal (r : Registry) : Journal EndpointId EndpointDescriptor := ⟨r.endpoints, r.endpoint_history⟩

def capabilityJournal (r : Registry) : Journal CapabilityId CapabilityDescriptor := ⟨r.capabilities, r.capability_history⟩

def runtimeJournal (r : Registry) : Journal RuntimeInstanceId RuntimeDescriptor := ⟨r.runtime_instances, r.runtime_history⟩

def instanceJournal (r : Registry) : Journal ServiceInstanceId ServiceInstance := ⟨r.instances, r.instance_history⟩

end Registry

/-- The kinds of records that have a history. -/
inductive Historic
  | endpoint | capability | runtime | inst
deriving DecidableEq

/-- A record of the kind, with the id and the generation, is stored or in the history. -/
def Historic.Kept (r : Registry) (k g : UInt64) : Historic → Prop
  | .endpoint => r.endpointJournal.Kept (·.endpoint_id) (·.generation) ⟨k⟩ ⟨g⟩
  | .capability => r.capabilityJournal.Kept (·.capability_id) (·.generation) ⟨k⟩ ⟨g⟩
  | .runtime => r.runtimeJournal.Kept (·.runtime_instance) (·.generation) ⟨k⟩ ⟨g⟩
  | .inst => r.instanceJournal.Kept (·.instance_id) (·.instance_generation) ⟨k⟩ ⟨g⟩

/-- The kind, the id and the generation of the record that the call registers. -/
def Op.record (r : Registry) : Op → Option (Historic × UInt64 × UInt64)
  | .register_endpoint ep _ => some (.endpoint, ep.endpoint_id.value, ep.generation.value)
  | .register_capability cap _ => some (.capability, cap.capability_id.value, cap.generation.value)
  | .register_runtime rt _ => some (.runtime, rt.runtime_instance.value, rt.generation.value)
  | .register_instance inst _ => some (.inst, (r.assignedId inst).value, inst.instance_generation.value)
  | .supersede _ inst _ => some (.inst, (r.assignedId inst).value, inst.instance_generation.value)
  | _ => none

namespace Registry

variable {r s t : Registry} {env : AuthorityEnvelope} {scan : List ServiceInstanceId} {op : Op} {e : Event}
  {K : Historic} {k g : UInt64}

/-- The call registers the record and returns. -/
def AcceptsRecord (r : Registry) (e : Event) (K : Historic) (k g : UInt64) : Prop :=
  e.op.record r = some (K, k, g) ∧ ∃ reply, e.reply = .ok reply

/-- What the state keeps of each kind is kept. -/
structure KeepsJournals (r t : Registry) : Prop where
  endpoints : r.endpointJournal.Keeps (·.endpoint_id) (·.generation) t.endpointJournal
  capabilities : r.capabilityJournal.Keeps (·.capability_id) (·.generation) t.capabilityJournal
  runtimes : r.runtimeJournal.Keeps (·.runtime_instance) (·.generation) t.runtimeJournal
  instances : r.instanceJournal.Keeps (·.instance_id) (·.instance_generation) t.instanceJournal

theorem KeepsJournals.refl (r : Registry) : KeepsJournals r r := ⟨.refl _, .refl _, .refl _, .refl _⟩

theorem KeepsJournals.rebuild_indexes (h : KeepsJournals r t) : KeepsJournals r t.rebuild_indexes := by
  obtain ⟨_, _, _, _, he⟩ := rebuild_indexes_writes t
  rw [he]
  exact { h with }

theorem keepsJournals_iff : KeepsJournals r t ↔ ∀ (K : Historic) k g, K.Kept r k g → K.Kept t k g := by
  refine ⟨fun h K k g hk => ?_, fun h => ?_⟩
  · cases K
    case endpoint => exact h.endpoints _ _ hk
    case capability => exact h.capabilities _ _ hk
    case runtime => exact h.runtimes _ _ hk
    case inst => exact h.instances _ _ hk
  · exact ⟨fun k g => h .endpoint k.value g.value, fun k g => h .capability k.value g.value,
      fun k g => h .runtime k.value g.value, fun k g => h .inst k.value g.value⟩

/-! ## Registrations of descriptors -/

section
variable {tag : IdTag} {gen : GenTag} {ρ : Type}

/-- A registration that names its id keeps the records if replacing the stored one does,
and storing over none. -/
theorem registerRecord_keeps {D : Domain tag gen ρ} {x : ρ} (hid : D.assign x r = (x, r))
    (hreplace : r.Accepts env → ∀ current, (D.table r)[D.id x]? = some current → D.generation current < D.generation x →
      KeepsJournals r (D.commit x (D.replace current x r)).2)
    (hinsert : (D.table r)[D.id x]? = none → KeepsJournals r (D.commit x (D.insert x r)).2) :
    KeepsJournals r (registerRecord D r x env).2 := by
  apply registerRecord_rule D (P := fun o => KeepsJournals r o.2)
  case rejected => exact fun _ _ => .refl r
  case repeated => exact fun _ _ _ _ _ => .refl r
  case stale => exact fun _ _ _ _ => { KeepsJournals.refl r with }
  case fenced => exact fun _ _ _ _ => { KeepsJournals.refl r with }
  case replaced => exact hreplace
  case inserted =>
    intro _ hnone _
    rw [hid]
    exact hinsert hnone

/-- A registration that names its id and returns leaves its generation stored. -/
theorem registerRecord_present {D : Domain tag gen ρ} (hD : D.Lawful) {x : ρ} (hid : D.assign x r = (x, r))
    (hreturns : (registerRecord D r x env).Returns) :
    ∃ y, (D.table (registerRecord D r x env).2)[D.id x]? = some y ∧ D.generation y = D.generation x := by
  revert hreturns
  apply registerRecord_rule D
    (P := fun o => o.Returns → ∃ y, (D.table o.2)[D.id x]? = some y ∧ D.generation y = D.generation x)
  case rejected => exact fun e _ hreturns => absurd hreturns (Outcome.not_returns_error e _)
  case stale => exact fun _ _ _ _ hreturns => absurd hreturns (Outcome.not_returns_error _ _)
  case fenced => exact fun _ _ _ _ hreturns => absurd hreturns (Outcome.not_returns_error _ _)
  case repeated => exact fun _ current hold hgen _ _ => ⟨current, hold, hgen.symm⟩
  case replaced =>
    intro _ current _ _ _
    refine ⟨x, ?_, rfl⟩
    rw [hD.table_commit, hD.table_replace, Std.ExtTreeMap.getElem?_insert_self]
  case inserted =>
    intro _ _ _ _
    rw [hid]
    refine ⟨x, ?_, rfl⟩
    rw [hD.table_commit, hD.table_insert, Std.ExtTreeMap.getElem?_insert_self]

theorem registerRecord_upgrades {D : Domain tag gen ρ} {x current : ρ} (ha : r.Accepts env)
    (hold : (D.table r)[D.id x]? = some current) (hlt : D.generation current < D.generation x) :
    registerRecord D r x env = D.commit x (D.replace current x r) := by
  rw [registerRecord, authorized_accepted ha]
  simp [hold, hlt.ne', hlt.not_ge]

end

/-- An accepted upgrade finds the record that it replaces in the history of the runtimes. -/
def KeepsUpgraded (r : Registry) (e : Event) : Prop :=
  ∀ rt env, e.op = .register_runtime rt env → r.Accepts env → ∀ current,
    r.runtime_instances[rt.runtime_instance]? = some current → current.generation < rt.generation →
    r.runtimeJournal.Past (·.runtime_instance) (·.generation) rt.runtime_instance current.generation

/-- An upgrade keeps the records if and only if the one that it replaces is in the history. -/
theorem runtime_upgrade_iff (hkey : wellKeyed.Holds r) {rt current : RuntimeDescriptor}
    (hold : r.runtime_instances[rt.runtime_instance]? = some current) (hlt : current.generation < rt.generation) :
    KeepsJournals r (runtimes_.commit rt (runtimes_.replace current rt r)).2 ↔
      r.runtimeJournal.Past (·.runtime_instance) (·.generation) rt.runtime_instance current.generation := by
  have hsame : current.runtime_instance = rt.runtime_instance := hkey.runtime_instances _ _ hold
  have hiff : r.runtimeJournal.Keeps (·.runtime_instance) (·.generation)
      (runtimes_.commit rt (runtimes_.replace current rt r)).2.runtimeJournal ↔
      r.runtimeJournal.Past (·.runtime_instance) (·.generation) rt.runtime_instance current.generation :=
    Journal.Keeps.replace_iff hold hsame hlt.ne
  exact ⟨fun h => hiff.1 h.runtimes, fun h => { KeepsJournals.refl r with runtimes := hiff.2 h }⟩

/-- A registration of a descriptor keeps the records. -/
theorem descriptor_keeps (hkey : wellKeyed.Holds r) (hc : e.op.class = .descriptor) (hnames : e.op.NamesDescriptor)
    (hk : r.KeepsUpgraded e) : KeepsJournals r (r.exec e.scan e.op).2 := by
  rcases hop : e.op <;> rw [hop] at hc hnames <;> simp only [Op.class, reduceCtorEq] at hc
  case register_service svc env =>
    simp only [exec, Outcome.map_snd, register_service, Outcome.void_snd]
    refine registerRecord_keeps (Domain.assign_named (.inl rfl)) (fun _ _ _ _ => ?_) fun _ => ?_
    · exact KeepsJournals.rebuild_indexes { KeepsJournals.refl r with }
    · exact KeepsJournals.rebuild_indexes { KeepsJournals.refl r with }
  case register_runtime rt env =>
    apply registerRecord_keeps (Domain.assign_named (D := runtimes_) (.inr hnames))
    · exact fun ha current hold hlt => (runtime_upgrade_iff hkey hold hlt).2 (hk rt env hop ha current hold hlt)
    · exact fun hnone => { KeepsJournals.refl r with runtimes := .enter hnone [rt] }
  case register_endpoint ep env =>
    apply registerRecord_keeps (Domain.assign_named (D := endpoints_) (.inr hnames))
    · exact fun _ _ hold _ => { KeepsJournals.refl r with endpoints := .supersede hold }
    · exact fun hnone => { KeepsJournals.refl r with endpoints := .enter hnone [ep] }
  case register_capability cap env =>
    apply registerRecord_keeps (Domain.assign_named (D := capabilities_) (.inr hnames))
    · exact fun _ _ hold _ => { KeepsJournals.refl r with capabilities := .supersede hold }
    · exact fun hnone => { KeepsJournals.refl r with capabilities := .enter hnone [cap] }
  case register_backend bd env =>
    apply registerRecord_keeps (Domain.assign_named (D := backends_) (.inr hnames))
    · exact fun _ _ _ _ => { KeepsJournals.refl r with }
    · exact fun _ => { KeepsJournals.refl r with }
  case register_device dd env =>
    apply registerRecord_keeps (Domain.assign_named (D := devices_) (.inr hnames))
    · exact fun _ _ _ _ => { KeepsJournals.refl r with }
    · exact fun _ => { KeepsJournals.refl r with }
  case register_protocol pd env =>
    simp only [exec, Outcome.map_snd, register_protocol, Outcome.void_snd]
    apply registerRecord_keeps (Domain.assign_named (.inl rfl))
    · exact fun _ _ _ _ => { KeepsJournals.refl r with }
    · exact fun _ => { KeepsJournals.refl r with }
  case register_node nd env =>
    simp only [exec, Outcome.map_snd, register_node, Outcome.void_snd]
    apply registerRecord_keeps (Domain.assign_named (.inl rfl))
    · exact fun _ _ _ _ => { KeepsJournals.refl r with }
    · exact fun _ => { KeepsJournals.refl r with }

/-! ## The other calls -/

/-- Every stored instance is in the history. -/
def InstancesLogged (r : Registry) : Prop := r.instanceJournal.Complete (·.instance_id) (·.instance_generation)

theorem instance_past {id : ServiceInstanceId} {gen : ServiceInstanceGeneration} (hs : Step r e t) (himage : e.op.class ≠ .image)
    (h : r.instanceJournal.Past (·.instance_id) (·.instance_generation) id gen) :
    t.instanceJournal.Past (·.instance_id) (·.instance_generation) id gen := by
  have hgrown : r.instance_history <+: t.instance_history := hs.state ▸ r.exec_history e.scan himage
  exact Journal.Past.mono h hgrown.subset

theorem InstancesLogged.step (h : r.InstancesLogged) (hs : Step r e t) (himage : e.op.class ≠ .image) :
    t.InstancesLogged := by
  intro id inst hi
  rcases instance_origin hs himage hi with ⟨old, hold, hsame⟩ | ⟨new, henrolls, rfl, hsame⟩
  · have hpast := instance_past hs himage (h id old hold)
    dsimp only at hpast ⊢
    rwa [hsame.instance_generation]
  · exact ⟨_, henrolls.appended hs, rfl, hsame.instance_generation.symm⟩

/-- A call that registers no descriptor keeps the records. -/
theorem other_keeps (h : r.InstancesLogged) (hc : op.class ≠ .descriptor) (himage : op.class ≠ .image) :
    KeepsJournals r (r.exec scan op).2 := by
  have hinstances : r.instanceJournal.Keeps (·.instance_id) (·.instance_generation) (r.exec scan op).2.instanceJournal :=
    h.keeps (r.exec_history scan himage).subset
  have hendpoints : r.endpoint_history ⊆ (r.exec scan op).2.endpoint_history →
      r.endpointJournal.Keeps (·.endpoint_id) (·.generation) (r.exec scan op).2.endpointJournal := fun hpast =>
    .edit (fun _ _ hep => endpoint_edited hc himage hep) hpast
  have hw := r.exec_writes scan op
  rcases hcl : op.class <;> rw [hcl] at hw
  case inst =>
    obtain ⟨_, _, _, _, _, _, _, _, _, _, _, _, hw⟩ := hw
    rw [hw] at hinstances hendpoints ⊢
    exact { KeepsJournals.refl r with endpoints := hendpoints (List.Subset.refl _), instances := hinstances }
  case lease | tombstone =>
    obtain ⟨_, _, _, _, hw, -⟩ := hw
    rw [hw]
    exact { KeepsJournals.refl r with }
  case note =>
    obtain ⟨_, _, _, hw, -⟩ := hw
    rw [hw]
    exact { KeepsJournals.refl r with }
  case incarnation =>
    cases op <;> simp only [Op.class, reduceCtorEq] at hcl
    case begin_coordinator_epoch =>
      have hcapabilities : r.capabilityJournal.Keeps (·.capability_id) (·.generation)
          (r.exec scan .begin_coordinator_epoch).2.capabilityJournal := by
        refine .edit (fun k cap hcap => ⟨revalidateCapability cap, ?_, revalidateCapability_id cap,
          revalidateCapability_generation cap⟩) (List.Subset.refl _)
        exact Std.ExtTreeMap.getElem?_map.trans (congrArg (Option.map _) hcap)
      exact { KeepsJournals.refl r with
        endpoints := hendpoints (List.Subset.refl _), capabilities := hcapabilities, instances := hinstances }
    case adopt_worker worker =>
      obtain ⟨_, _, _, _, _, hw⟩ := adopt_worker_writes r worker
      simp only [exec, hw] at hinstances hendpoints ⊢
      exact { KeepsJournals.refl r with endpoints := hendpoints (List.Subset.refl _), instances := hinstances }
    case mark_worker_died boot =>
      obtain ⟨_, _, _, _, hw⟩ := revoke_writes r boot
      simp only [exec, mark_worker_died, hw] at hinstances hendpoints ⊢
      exact { KeepsJournals.refl r with endpoints := hendpoints (List.Subset.refl _), instances := hinstances }
  case descriptor => exact absurd hcl hc
  case image => exact absurd hcl himage

/-! ## Accepted records -/

theorem checkedIn_assignedId (op : Op) (inst : ServiceInstance) : (op.checkedIn r).assignedId inst = r.assignedId inst := by
  cases op
  case supersede old_id new env =>
    rcases hold : r.instances[old_id]? with _ | old
    · simp only [Op.checkedIn, hold]
    · simp only [Op.checkedIn, hold]
      rfl
  all_goals rfl

/-- Marking an instance superseded changes no id and no generation. -/
theorem checkedIn_instances (op : Op) {id : ServiceInstanceId} {inst : ServiceInstance}
    (h : (op.checkedIn r).instances[id]? = some inst) :
    ∃ old, r.instances[id]? = some old ∧ old.instance_id = inst.instance_id ∧
      old.instance_generation = inst.instance_generation := by
  cases op
  case supersede old_id new env =>
    rcases hold : r.instances[old_id]? with _ | old
    · simp only [Op.checkedIn, hold] at h
      exact ⟨inst, h, rfl, rfl⟩
    · simp only [Op.checkedIn, hold, markSuperseded, Std.ExtTreeMap.getElem?_insert] at h
      split_ifs at h with hid
      · have heq : old_id = id := Std.LawfulEqCmp.eq_of_compare hid
        subst heq
        obtain rfl := Option.some.inj h
        exact ⟨old, hold, rfl, rfl⟩
      · exact ⟨inst, h, rfl, rfl⟩
  all_goals exact ⟨inst, h, rfl, rfl⟩

/-- A registered instance is in the history at its return: a repeat was there before. -/
theorem instance_logged {inst : ServiceInstance} (h : r.InstancesLogged) (hkey : wellKeyed.Holds r) (hs : Step r e t)
    (hnew : e.op.newInstance = some inst) (hreply : ∃ reply, e.reply = .ok reply) :
    t.instanceJournal.Past (·.instance_id) (·.instance_generation) (r.assignedId inst) inst.instance_generation := by
  by_cases hrepeat : (e.op.checkedIn r).Repeats e.scan inst
  · obtain ⟨_, id, current, hcurrent, hgen, hsame⟩ := hrepeat
    obtain ⟨old, hold, hid, hgen'⟩ := checkedIn_instances e.op (currentInstance_some hcurrent).1
    have himage : e.op.class ≠ .image := by
      rw [(newInstance_call hnew).1]
      decide
    have hassigned : r.assignedId inst = id := by
      simp only [BEq.beq, Bool.and_eq_true, decide_eq_true_eq] at hsame
      calc r.assignedId inst = (e.op.checkedIn r).assignedId inst := (checkedIn_assignedId e.op inst).symm
        _ = current.instance_id := congrArg (·.instance_id) hsame.1
        _ = old.instance_id := hid.symm
        _ = id := hkey.instances _ _ hold
    have hpast := instance_past hs himage (h id old hold)
    dsimp only at hpast
    rwa [hassigned, hgen, ← hgen']
  · exact ⟨_, Enrolls.appended ⟨hnew, hreply, hrepeat⟩ hs, rfl, rfl⟩

/-- A record that a call accepts is stored, or in the history, at its return. -/
theorem AcceptsRecord.kept (h : r.InstancesLogged) (hkey : wellKeyed.Holds r) (hs : Step r e t)
    (hnames : e.op.NamesDescriptor) (hacc : r.AcceptsRecord e K k g) : K.Kept t k g := by
  obtain ⟨hrecord, hreply⟩ := hacc
  have hkept : wellKeyed.Holds t := wellKeyed_step hkey hs
  have hreturns : (r.exec e.scan e.op).Returns := by
    rw [hs.2]
    exact hreply
  have hstate := hs.state
  rcases hop : e.op <;> rw [hop] at hrecord hnames hreturns hstate <;>
    simp only [Op.record, Option.some.injEq, Prod.mk.injEq, reduceCtorEq] at hrecord
  case register_endpoint ep env =>
    obtain ⟨rfl, rfl, rfl⟩ := hrecord
    obtain ⟨y, hy, hgen⟩ := registerRecord_present endpoints_lawful (Domain.assign_named (.inr hnames))
      ((Outcome.map_returns _ _).1 hreturns)
    have hstored : t.endpoints[ep.endpoint_id]? = some y := hstate ▸ hy
    exact .inl ⟨y, hstored, hkept.endpoints _ _ hstored, hgen⟩
  case register_capability cap env =>
    obtain ⟨rfl, rfl, rfl⟩ := hrecord
    obtain ⟨y, hy, hgen⟩ := registerRecord_present capabilities_lawful (Domain.assign_named (.inr hnames))
      ((Outcome.map_returns _ _).1 hreturns)
    have hstored : t.capabilities[cap.capability_id]? = some y := hstate ▸ hy
    exact .inl ⟨y, hstored, hkept.capabilities _ _ hstored, hgen⟩
  case register_runtime rt env =>
    obtain ⟨rfl, rfl, rfl⟩ := hrecord
    obtain ⟨y, hy, hgen⟩ := registerRecord_present runtimes_lawful (Domain.assign_named (.inr hnames))
      ((Outcome.map_returns _ _).1 hreturns)
    have hstored : t.runtime_instances[rt.runtime_instance]? = some y := hstate ▸ hy
    exact .inl ⟨y, hstored, hkept.runtime_instances _ _ hstored, hgen⟩
  case register_instance inst env =>
    obtain ⟨rfl, rfl, rfl⟩ := hrecord
    exact .inr (instance_logged h hkey hs (by rw [hop]; rfl) hreply)
  case supersede old_id inst env =>
    obtain ⟨rfl, rfl, rfl⟩ := hrecord
    exact .inr (instance_logged h hkey hs (by rw [hop]; rfl) hreply)

/-! ## Runs -/

/-- A call whose registrations name their ids keeps every record if and only if an
upgrade of a runtime instance finds the record that it replaces in the history. -/
theorem keepsJournals_step_iff (h : r.InstancesLogged) (hkey : wellKeyed.Holds r) (hs : Step r e t)
    (himage : e.op.class ≠ .image) (hnames : e.op.NamesDescriptor) : KeepsJournals r t ↔ r.KeepsUpgraded e := by
  rw [hs.state]
  refine ⟨fun hkeeps rt env hop ha current hold hlt => ?_, fun hk => ?_⟩
  · have hupgrade : (r.exec e.scan e.op).2 = (runtimes_.commit rt (runtimes_.replace current rt r)).2 := by
      rw [hop]
      exact congrArg Prod.snd (registerRecord_upgrades (D := runtimes_) ha hold hlt)
    rw [hupgrade] at hkeeps
    exact (runtime_upgrade_iff hkey hold hlt).1 hkeeps
  · by_cases hc : e.op.class = .descriptor
    · exact descriptor_keeps hkey hc hnames hk
    · exact other_keeps h hc himage

theorem fresh_logged : fresh.InstancesLogged := by
  have hnone : fresh.instances = ∅ := Std.ExtTreeMap.isEmpty_iff.1 (by decide +kernel)
  intro id inst hi
  have hi' : fresh.instances[id]? = some inst := hi
  rw [hnone] at hi'
  cases Std.ExtTreeMap.getElem?_empty.symm.trans hi'

/-- In every run without `load_from` whose registrations name their ids, and whose
upgrades of runtime instances find the replaced record in the history, whatever record a
call accepts is stored or in its history in the state that the run ends in. -/
theorem accepted_generations_kept {es es' : List Event}
    (hbefore : Run (Guarded Step fun r e => e.noLoad ∧ e.op.NamesDescriptor ∧ r.KeepsUpgraded e) fresh es s)
    (h : Run (Guarded Step fun r e => e.noLoad ∧ e.op.NamesDescriptor ∧ r.KeepsUpgraded e) s (e :: es') t)
    (hacc : s.AcceptsRecord e K k g) : K.Kept t k g := by
  have hinv : ∀ u e v, wellKeyed.Holds u ∧ u.InstancesLogged →
      Guarded Step (fun r e => e.noLoad ∧ e.op.NamesDescriptor ∧ r.KeepsUpgraded e) u e v →
      wellKeyed.Holds v ∧ v.InstancesLogged := by
    rintro u e v ⟨hkey, hlogged⟩ ⟨hs, hload, _⟩
    exact ⟨wellKeyed_step hkey hs, hlogged.step hs hload.class_ne⟩
  obtain ⟨hkey, hlogged⟩ := hbefore.inv _ hinv ⟨RecordCondition.holds_fresh _, fresh_logged⟩
  cases h with
  | cons hfirst hrest =>
    have hkept := hacc.kept hlogged hkey hfirst.1 hfirst.2.2.1
    refine (hrest.inv (fun u => (wellKeyed.Holds u ∧ u.InstancesLogged) ∧ K.Kept u k g) ?_
      ⟨hinv _ _ _ ⟨hkey, hlogged⟩ hfirst, hkept⟩).2
    rintro u e v ⟨⟨hkey, hlogged⟩, hk⟩ hst
    refine ⟨hinv u e v ⟨hkey, hlogged⟩ hst, ?_⟩
    have hkeeps : KeepsJournals u v :=
      (keepsJournals_step_iff hlogged hkey hst.1 hst.2.1.class_ne hst.2.2.1).2 hst.2.2.2
    exact keepsJournals_iff.1 hkeeps K k g hk

/-- The first registration of a runtime instance is in the history after an upgrade. -/
theorem accepted_generations_kept_sample :
    Historic.runtime.Kept (fresh.after (Sample.launches [Sample.launch 2 1, Sample.launch 2 2])) 2 1 := by
  have hnamed : ∀ g : UInt64, (Op.register_runtime (Sample.launch 2 g) Sample.env).NamesDescriptor :=
    fun _ => show (2 : UInt64) ≠ 0 by decide
  have hguard : ∀ (u : Registry) g, (∀ y ∈ u.runtime_instances[(⟨2⟩ : RuntimeInstanceId)]?,
        ∃ x ∈ u.runtime_history, x.runtime_instance = ⟨2⟩ ∧ x.generation = y.generation) →
      let e := u.call (.register_runtime (Sample.launch 2 g) Sample.env)
      e.noLoad ∧ e.op.NamesDescriptor ∧ u.KeepsUpgraded e := by
    intro u g hpast e
    refine ⟨fun data hop => ?_, hnamed g, ?_⟩
    · cases hop
    · rintro _ _ ⟨⟩ _ current hold _
      exact hpast current hold
  have hadopt : Meets (fun r op => (r.call op).noLoad ∧ (r.call op).op.NamesDescriptor ∧ r.KeepsUpgraded (r.call op))
      fresh [.adopt_worker ⟨1⟩] := by
    refine ⟨⟨fun data hop => ?_, trivial, fun rt env hop => ?_⟩, trivial⟩
    · cases hop
    · cases hop
  have hupgrade : Meets (fun r op => (r.call op).noLoad ∧ (r.call op).op.NamesDescriptor ∧ r.KeepsUpgraded (r.call op))
      (fresh.after (Sample.launches [Sample.launch 2 1])) [.register_runtime (Sample.launch 2 2) Sample.env] :=
    ⟨hguard _ 2 (by decide +kernel), trivial⟩
  obtain ⟨es, hbefore⟩ := Meets.calls (P := fun r e => e.noLoad ∧ e.op.NamesDescriptor ∧ r.KeepsUpgraded e) hadopt
  obtain ⟨es', hafter⟩ := Meets.calls (P := fun r e => e.noLoad ∧ e.op.NamesDescriptor ∧ r.KeepsUpgraded e) hupgrade
  have hfirst := hguard (fresh.after [.adopt_worker ⟨1⟩]) 1 (by decide +kernel)
  exact accepted_generations_kept hbefore (.cons ⟨step_call _ _, hfirst⟩ hafter) ⟨rfl, ⟨_, rfl⟩⟩

/-- The second of three generations is lost. -/
theorem generation_lost :
    let s := fresh.after (Sample.launches [Sample.launch 2 1])
    let e := s.call (.register_runtime (Sample.launch 2 2) Sample.env)
    let t := s.after [.register_runtime (Sample.launch 2 2) Sample.env, .register_runtime (Sample.launch 2 3) Sample.env]
    (∃ es, Run (Guarded Step fun _ e => e.noLoad ∧ e.op.NamesDescriptor) fresh es s) ∧
      (∃ es, Run (Guarded Step fun _ e => e.noLoad ∧ e.op.NamesDescriptor) s (e :: es) t) ∧
      s.AcceptsRecord e .runtime 2 2 ∧ ¬ Historic.runtime.Kept t 2 2 := by
  intro s e t
  have hstored : ∀ x ∈ t.runtime_instances[(⟨2⟩ : RuntimeInstanceId)]?, x.generation ≠ ⟨2⟩ := by decide +kernel
  have hpast : ∀ x ∈ t.runtime_history, x.generation ≠ ⟨2⟩ := by decide +kernel
  have hadopt : (fresh.call (.adopt_worker ⟨1⟩)).noLoad ∧ (fresh.call (.adopt_worker ⟨1⟩)).op.NamesDescriptor := by
    refine ⟨fun data hop => ?_, trivial⟩
    cases hop
  have hguard : ∀ (u : Registry) g, let e := u.call (.register_runtime (Sample.launch 2 g) Sample.env)
      e.noLoad ∧ e.op.NamesDescriptor := by
    refine fun u g => ⟨fun data hop => ?_, show (2 : UInt64) ≠ 0 by decide⟩
    cases hop
  have hlast : Meets (fun r op => (r.call op).noLoad ∧ (r.call op).op.NamesDescriptor)
      (s.after [.register_runtime (Sample.launch 2 2) Sample.env]) [.register_runtime (Sample.launch 2 3) Sample.env] :=
    ⟨hguard _ 3, trivial⟩
  refine ⟨?_, ?_, ⟨rfl, ⟨_, rfl⟩⟩, ?_⟩
  · exact Meets.calls (P := fun _ e => e.noLoad ∧ e.op.NamesDescriptor) ⟨hadopt, hguard _ 1, trivial⟩
  · obtain ⟨es, hrest⟩ := Meets.calls (P := fun _ e => e.noLoad ∧ e.op.NamesDescriptor) hlast
    exact ⟨es, .cons ⟨s.step_call _, hguard s 2⟩ hrest⟩
  · rintro (⟨x, hx, _, hgen⟩ | ⟨x, hx, _, hgen⟩)
    · exact hstored x hx hgen
    · exact hpast x hx hgen

end Registry

end RuntimeRegistry
