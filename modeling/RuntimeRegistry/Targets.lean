import RuntimeRegistry.Admission
import RuntimeRegistry.Succession
import RuntimeRegistry.Tombstones
/-!
# What tombstones and invalidations do to discovery

A query goes by the lifecycle of an instance and by its boot, and no call writes
`TOMBSTONED` or `INVALIDATED` there. A tombstone or an invalidation is recorded
and leaves the instances that it targets as they are, so it binds discovery only
where what it targets is withdrawn already, and where nothing brings it back.
-/
open Lib

namespace RuntimeRegistry

/-- The tombstone targets the instance, or its service up to a generation. -/
def TombstoneRecord.Targets (tomb : TombstoneRecord) (id : ServiceInstanceId) (inst : ServiceInstance) : Prop :=
  tomb.target_kind = text "ServiceId" ∧ tomb.target_text = to_string inst.service_id.value ∧
      inst.instance_generation.value ≤ tomb.generation_floor.value ∨
    tomb.target_kind = text "ServiceInstanceId" ∧ tomb.target_text = to_string id.value

/-- The invalidation targets the instance or its service, up to a generation. -/
def InvalidationRecord.Targets (record : InvalidationRecord) (id : ServiceInstanceId) (inst : ServiceInstance) : Prop :=
  (record.target_kind = text "ServiceInstanceId" ∧ record.target_text = to_string id.value ∨
      record.target_kind = text "ServiceId" ∧ record.target_text = to_string inst.service_id.value) ∧
    inst.instance_generation.value ≤ record.generation.value

instance (tomb : TombstoneRecord) (id : ServiceInstanceId) (inst : ServiceInstance) : Decidable (tomb.Targets id inst) :=
  inferInstanceAs (Decidable (_ ∨ _))

instance (record : InvalidationRecord) (id : ServiceInstanceId) (inst : ServiceInstance) :
    Decidable (record.Targets id inst) := inferInstanceAs (Decidable (_ ∧ _))

/-- An invalidation of the instance of the sample. -/
def Sample.invalidation : InvalidationRecord where
  target_kind := text "ServiceInstanceId"
  target_text := text "5"
  generation := ⟨1⟩

namespace Registry

variable {r s t : Registry} {op : Op} {env : AuthorityEnvelope} {scan : List ServiceInstanceId} {id k : ServiceInstanceId}
  {inst old : ServiceInstance}

/-- A stored tombstone or a recorded invalidation targets the instance. -/
def Targeted (r : Registry) (id : ServiceInstanceId) (inst : ServiceInstance) : Prop :=
  (∃ (key : TombstoneId) (tomb : TombstoneRecord), r.tombstones[key]? = some tomb ∧ tomb.Targets id inst) ∨
    ∃ record ∈ r.invalidations, record.Targets id inst

/-- No query for current instances finds the instance: it is over, stale, or its
boot is not live. -/
def Withdrawn (r : Registry) (inst : ServiceInstance) : Prop :=
  historical inst.lifecycle = true ∨ inst.lifecycle = Lifecycle.STALE ∨ r.authority.is_boot_live inst.boot = false

/-- Every targeted instance is withdrawn. -/
def TargetsWithdrawn (r : Registry) : Prop :=
  ∀ (id : ServiceInstanceId) (inst : ServiceInstance), r.instances[id]? = some inst → r.Targeted id inst → r.Withdrawn inst

/-- The targets are told by the service and the generation of the instance. -/
theorem Targeted.congr {inst' : ServiceInstance} (h : r.Targeted id inst') (hservice : inst'.service_id = inst.service_id)
    (hgen : inst'.instance_generation = inst.instance_generation) : r.Targeted id inst := by
  unfold Targeted TombstoneRecord.Targets InvalidationRecord.Targets at *
  rwa [hservice, hgen] at h

/-- What is withdrawn is not ranked. -/
theorem Withdrawn.not_ranked (hreach : r.Reachable) (hscan : scan.Perm r.instances.keys) {q : RegistryQuery}
    (hq : q.current_only = true) (hi : r.instances[id]? = some inst) (h : r.Withdrawn inst) :
    id ∉ (r.query scan q).rankedIds := by
  intro hranked
  have hall := (forall_ranked hreach hscan (q := q) fun inst => ¬ r.Withdrawn inst).2 ?_ id hranked
  · obtain ⟨inst', hi', hnot⟩ := hall
    obtain rfl : inst = inst' := Option.some.inj (hi.symm.trans hi')
    exact hnot h
  · rintro id inst svc _ he _ (hover | hstale | hdead)
    · simp [historical, he.current hq, he.tombstoned, he.invalidated] at hover
    · exact he.stale hstale
    · exact absurd (he.live.symm.trans hdead) (by decide)

/-! ## New targets -/

/-- A target is new with the tombstone or the invalidation that the call records. -/
theorem exec_targeted (himage : op.class ≠ .image) (h : (r.exec scan op).2.Targeted id inst) :
    r.Targeted id inst ∨ (∃ tomb env, op = .create_tombstone tomb env ∧ r.Accepts env ∧ tomb.Targets id inst) ∨
      ∃ record env, op = .invalidate record env ∧ r.Accepts env ∧ record.Targets id inst := by
  rcases h with ⟨key, tomb, hkey, ht⟩ | ⟨record, hmem, ht⟩
  · by_cases hc : op.class = .tombstone
    · cases op <;> simp only [Op.class, reduceCtorEq] at hc
      case create_tombstone new env =>
        by_cases ha : r.Accepts env
        · have hstored : (r.exec scan (.create_tombstone new env)).2.tombstones = _ := create_tombstone_tombstones ha
          rw [hstored] at hkey
          rcases getElem?_insert_cases r.tombstones (r.tombstoneSlot new) key
            { new with tombstone_id := r.tombstoneSlot new } with ⟨_, hk⟩ | ⟨_, hk⟩
          · obtain rfl := Option.some.inj (hkey.symm.trans hk)
            exact .inr (.inl ⟨new, env, rfl, ha, ht⟩)
          · exact .inl (.inl ⟨key, tomb, hk.symm.trans hkey, ht⟩)
        · obtain ⟨e, he⟩ := exec_rejected (show (Op.create_tombstone new env).envelope = some env from rfl) ha scan
          rw [he] at hkey
          exact .inl (.inl ⟨key, tomb, hkey, ht⟩)
    · rw [exec_tombstones scan op hc himage] at hkey
      exact .inl (.inl ⟨key, tomb, hkey, ht⟩)
  · rcases exec_invalidations (r := r) scan op himage with hkept | ⟨new, env, rfl, hreturns, hgrown⟩
    · rw [hkept] at hmem
      exact .inl (.inr ⟨record, hmem, ht⟩)
    · rw [hgrown, List.mem_append, List.mem_singleton] at hmem
      rcases hmem with hmem | rfl
      · exact .inl (.inr ⟨record, hmem, ht⟩)
      · refine .inr (.inr ⟨record, env, rfl, ?_, ht⟩)
        by_contra ha
        obtain ⟨e, he⟩ := exec_rejected (show (Op.invalidate record env).envelope = some env from rfl) ha scan
        rw [he] at hreturns
        exact Outcome.not_returns_error e r hreturns

/-! ## Classification -/

/-- An instance of a boot that is not live, or that is not current, is stale. -/
theorem reclassify_stale (h : r.authority.is_boot_live inst.boot = true → inst.freshness ≠ Freshness.CURRENT) :
    (r.reclassify_lifecycle inst).lifecycle = Lifecycle.STALE := by
  have hclass : (r.reclassify_lifecycle inst).lifecycle = r.classify { inst with
      health := aggregate_health inst r.endpoints, reachability := aggregate_reachability inst r.endpoints } := rfl
  rw [hclass, classify]
  by_cases hlive : r.authority.is_boot_live inst.boot = true
  · simp [hlive, h hlive]
  · simp [hlive]

/-- The four updates keep what the targets go by. -/
theorem updates_identity {write : ServiceInstance → ServiceInstance} (h : op.updates = some (id, write))
    (inst : ServiceInstance) : (write inst).service_id = inst.service_id ∧
      (write inst).instance_generation = inst.instance_generation := by
  cases op <;> simp only [Op.updates, Option.some.injEq, Prod.mk.injEq, reduceCtorEq] at h
  all_goals
    obtain ⟨_, rfl⟩ := h
    exact ⟨rfl, rfl⟩

theorem updateInstance_evidence (r : Registry) (id : ServiceInstanceId) (write : ServiceInstance → ServiceInstance)
    (stale : RegistryError) (env : AuthorityEnvelope) : SameEvidence r (r.updateInstance id write stale env).2 := by
  apply updateInstance_rule (P := fun o => SameEvidence r o.2)
  case rejected => exact fun _ _ => ⟨rfl, rfl, rfl, rfl, rfl⟩
  case unknown => exact fun _ _ _ => ⟨rfl, rfl, rfl, rfl, rfl⟩
  case superseded => exact fun _ _ _ _ => ⟨rfl, rfl, rfl, rfl, rfl⟩
  case updated => exact fun _ _ _ _ => ⟨rfl, rfl, rfl, rfl, rfl⟩

/-- An update classifies by the evidence of the state that it is made in. -/
theorem updates_evidence {write : ServiceInstance → ServiceInstance} (h : op.updates = some (id, write)) :
    SameEvidence r (r.exec scan op).2 := by
  cases op <;> simp only [Op.updates, reduceCtorEq] at h
  all_goals exact updateInstance_evidence r _ _ _ _

/-- An update of an endpoint classifies by the updated endpoint. -/
theorem update_reachability_evidence {eid : EndpointId} {rc : Enum Reachability} {ep : EndpointDescriptor}
    (h : r.UpdatesEndpoint env eid ep) : SameEvidence
      { r with endpoints := r.endpoints.insert eid { ep with reachability := rc } }
      (r.exec scan (.update_reachability eid rc env)).2 := by
  obtain ⟨ha, hep, hgen⟩ := h
  apply update_reachability_rule (P := fun o => SameEvidence
    { r with endpoints := r.endpoints.insert eid { ep with reachability := rc } } o.2)
  case rejected => exact fun _ hrej => absurd ha hrej
  case unknown => exact fun _ hnone => nomatch hnone.symm.trans hep
  case stale =>
    intro _ ep' hep' hstale
    obtain rfl : ep = ep' := Option.some.inj (hep.symm.trans hep')
    exact absurd hstale hgen
  case updated =>
    intro _ ep' hep' _
    obtain rfl : ep = ep' := Option.some.inj (hep.symm.trans hep')
    apply reclassifyOwner_rule (P := fun u => SameEvidence
      { r with endpoints := r.endpoints.insert eid { ep with reachability := rc } } u.commit_registry_generation)
    case kept => constructor <;> rfl
    case reclassified =>
      intro _ _ _
      constructor <;> rfl

/-! ## Registration -/

/-- How a registration that is checked in `s` can leave the record under `k`. -/
inductive Enters (r s : Registry) (scan : List ServiceInstanceId) (inst : ServiceInstance) (t : Registry)
    (k : ServiceInstanceId) : Prop
  | kept (h : t.instances[k]? = r.instances[k]?)
  | superseded (old : ServiceInstance) (h : t.instances[k]? = some { old with lifecycle := Lifecycle.SUPERSEDED })
  | stored (hk : k = r.assignedId inst) (hadm : s.Admissible scan inst)
      (h : t.instances[k]? = some (t.reclassify_lifecycle { inst with instance_id := k }))

theorem bindInstance_enters (r : Registry) (copy : ServiceInstance) (k : ServiceInstanceId) :
    (r.bindInstance copy).2.instances[k]? = r.instances[k]? ∨
      k = copy.instance_id ∧ (r.bindInstance copy).Returns ∧
        (r.bindInstance copy).2.instances[k]? = some ((r.bindInstance copy).2.reclassify_lifecycle copy) := by
  by_cases hreturns : (r.bindInstance copy).Returns
  · rcases bindInstance_instances r copy k with h | ⟨hk, h⟩
    · exact .inl h
    · exact .inr ⟨hk, hreturns, h⟩
  · refine .inl ?_
    have hkept := claimEndpoints_instances copy.instance_id copy.endpoints r
    revert hreturns
    apply bindInstance_rule (P := fun o => ¬ o.Returns → o.2.instances[k]? = r.instances[k]?)
    case refused =>
      intro e u hu _
      rw [hu] at hkept
      exact congrArg (·[k]?) hkept
    case stored => exact fun u _ hnot => absurd (Outcome.returns_ok _ _) hnot

theorem register_instance_enters (inst : ServiceInstance) (k : ServiceInstanceId) :
    Enters r r scan inst (r.register_instance scan inst env).2 k := by
  apply register_instance_state_rule (P := fun t => Enters r r scan inst t k)
  case kept => exact fun _ _ _ => .kept rfl
  case first =>
    intro _ hs hc hcov
    rcases bindInstance_enters { r with next_id := r.assignedNext inst } { inst with instance_id := r.assignedId inst } k
      with h | ⟨rfl, hreturns, h⟩
    · exact .kept h
    · refine .stored rfl ⟨hs, ?_⟩ h
      rw [hc]
      exact ⟨hcov, bindInstance_returns_iff.1 hreturns⟩
  case superseded =>
    intro _ hs id current hc hlt
    rcases bindInstance_enters ({ r with next_id := r.assignedNext inst }.supersedeCurrent id current)
      { inst with instance_id := r.assignedId inst } k with h | ⟨rfl, hreturns, h⟩
    · rcases getElem?_insert_cases r.instances id k { current with lifecycle := Lifecycle.SUPERSEDED } with
        ⟨_, hk⟩ | ⟨_, hk⟩
      · exact .superseded current (h.trans hk)
      · exact .kept (h.trans hk)
    · refine .stored rfl ⟨hs, ?_⟩ h
      rw [hc]
      exact ⟨hlt, bindInstance_returns_iff.1 hreturns⟩

theorem supersede_enters (old_id : ServiceInstanceId) (inst : ServiceInstance) (k : ServiceInstanceId) :
    Enters r ((Op.supersede old_id inst env).checkedIn r) scan inst (r.supersede scan old_id inst env).2 k := by
  have hmarked : ∀ old u, r.instances[old_id]? = some old →
      Enters (r.markSuperseded old_id old) (r.markSuperseded old_id old) scan inst u k →
      Enters r ((Op.supersede old_id inst env).checkedIn r) scan inst u k := by
    intro old u hold hu
    cases hu with
    | kept h =>
      rcases getElem?_insert_cases r.instances old_id k { old with lifecycle := Lifecycle.SUPERSEDED } with
        ⟨_, hk⟩ | ⟨_, hk⟩
      · exact .superseded old (h.trans hk)
      · exact .kept (h.trans hk)
    | superseded old' h => exact .superseded old' h
    | stored hk hadm h => exact .stored hk (by simpa only [Op.checkedIn, hold] using hadm) h
  refine supersede_state_rule (P := fun t => Enters r _ scan inst t k) (.kept rfl) fun _ old hold _ => ?_
  have hreg : Enters _ _ scan inst ((r.markSuperseded old_id old).register_instance scan inst env).2 k :=
    register_instance_enters inst k
  refine hmarked old _ hold ?_
  cases hreg with
  | kept h => exact .kept h
  | superseded old' h => exact .superseded old' h
  | stored hk hadm h => exact .stored hk hadm h

/-- What the two calls that register leave, checked in the state that they check in. -/
theorem exec_enters (hnew : op.newInstance = some inst) (k : ServiceInstanceId) :
    Enters r (op.checkedIn r) scan inst (r.exec scan op).2 k := by
  cases op <;> simp only [Op.newInstance, reduceCtorEq, Option.some.injEq] at hnew <;> subst hnew
  case register_instance inst env => exact register_instance_enters inst k
  case supersede old_id inst env => exact supersede_enters old_id inst k

/-! ## Every call -/

/-- The call records no target that is not withdrawn, and brings no target back: a
tombstone or an invalidation targets withdrawn instances only, a registration that
passes the checks stores no current instance of a live boot that is targeted, an
update of a targeted instance leaves it stale, an adoption revives the boot of no
targeted instance, and an image that breaks off leaves no targeted instance that
is not withdrawn. -/
structure KeepsTargets (r : Registry) (e : Event) : Prop where
  tombstone : ∀ tomb env, e.op = .create_tombstone tomb env → r.Accepts env → ∀ id inst,
    r.instances[id]? = some inst → tomb.Targets id inst → r.Withdrawn inst
  invalidation : ∀ record env, e.op = .invalidate record env → r.Accepts env → ∀ id inst,
    r.instances[id]? = some inst → record.Targets id inst → r.Withdrawn inst
  registered : ∀ inst env, e.op.newInstance = some inst → e.op.envelope = some env → r.Accepts env →
    (e.op.checkedIn r).Admissible e.scan inst → r.authority.is_boot_live inst.boot = true →
    inst.freshness = Freshness.CURRENT → ¬ r.Targeted (r.assignedId inst) inst
  updated : ∀ id write old, e.op.updates = some (id, write) → r.Authorizes e.op old → r.instances[id]? = some old →
    r.Targeted id old → (r.reclassify_lifecycle (write old)).lifecycle = Lifecycle.STALE
  refreshed : ∀ eid rc env ep old, e.op = .update_reachability eid rc env → r.UpdatesEndpoint env eid ep →
    ep.service_instance.value ≠ 0 → r.instances[ep.service_instance]? = some old → r.Targeted ep.service_instance old →
    (reclassify_lifecycle { r with endpoints := r.endpoints.insert eid { ep with reachability := rc } }
      old).lifecycle = Lifecycle.STALE
  adopted : e.op.adopts = true → ∀ id inst, r.instances[id]? = some inst → inst.boot = r.nextBoot →
    r.Targeted id inst → historical inst.lifecycle = true ∨ inst.lifecycle = Lifecycle.STALE
  broken : ∀ data, e.op = .load_from data → Admitted data → ¬ Complete data → ∀ id inst,
    (imageRecords data).2.instances[id]? = some inst → (imageRecords data).2.Targeted id inst → r.Withdrawn inst

/-- A withdrawn instance stays withdrawn where its record does, or is revived by an adoption. -/
theorem Withdrawn.exec (h : r.Withdrawn inst) (himage : op.class ≠ .image)
    (hadopts : op.adopts = true → inst.boot = r.nextBoot →
      historical inst.lifecycle = true ∨ inst.lifecycle = Lifecycle.STALE) : (r.exec scan op).2.Withdrawn inst := by
  rcases h with hover | hstale | hdead
  · exact .inl hover
  · exact .inr (.inl hstale)
  · by_cases hlive : (r.exec scan op).2.authority.is_boot_live inst.boot = true
    · rcases (r.exec_boots scan op himage).2 inst.boot hlive with hwas | ⟨hop, hboot⟩
      · exact absurd (hwas.symm.trans hdead) (by decide)
      · exact (hadopts hop hboot).imp_right .inl
    · exact .inr (.inr (by simpa using hlive))

theorem TargetsWithdrawn.exec_register {e : Event} (h : r.TargetsWithdrawn) (hg : r.KeepsTargets e)
    (hnew : e.op.newInstance = some inst) (hi : (r.exec e.scan e.op).2.instances[id]? = some old)
    (ht : r.Targeted id old) : (r.exec e.scan e.op).2.Withdrawn old := by
  obtain ⟨hclass, env, henv⟩ := newInstance_call hnew
  have himage : e.op.class ≠ .image := by rw [hclass]; decide
  have hadopts : e.op.adopts ≠ true := fun hop => by rw [adopts_class hop] at hclass; cases hclass
  have henters : Enters r (e.op.checkedIn r) e.scan inst (r.exec e.scan e.op).2 id := exec_enters hnew id
  cases henters with
  | kept hk => exact (h id old (hk.symm.trans hi) ht).exec himage fun hop => absurd hop hadopts
  | superseded old' hk =>
    obtain rfl := Option.some.inj (hi.symm.trans hk)
    exact .inl rfl
  | stored hid hadm hk =>
    obtain rfl := Option.some.inj (hi.symm.trans hk)
    by_cases ha : r.Accepts env
    · refine .inr (.inl (reclassify_stale fun hlive hfresh => ?_))
      have hwas : r.authority.is_boot_live inst.boot = true := by
        rcases (r.exec_boots e.scan e.op himage).2 inst.boot hlive with hwas | hop
        · exact hwas
        · exact absurd hop.1 hadopts
      have htargeted : r.Targeted id inst := ht.congr rfl rfl
      rw [hid] at htargeted
      exact hg.registered inst env hnew henv ha hadm hwas hfresh htargeted
    · obtain ⟨err, he⟩ := exec_rejected henv ha e.scan
      rw [he] at hk ⊢
      exact h id _ hk ht

/-- A call that records no new target and registers nothing. -/
theorem TargetsWithdrawn.exec_kept {e : Event} (h : r.TargetsWithdrawn) (hg : r.KeepsTargets e)
    (himage : e.op.class ≠ .image) (hnew : e.op.newInstance = none)
    (hi : (r.exec e.scan e.op).2.instances[id]? = some inst) (ht : r.Targeted id inst) :
    (r.exec e.scan e.op).2.Withdrawn inst := by
  cases r.exec_change e.scan e.op himage id with
  | kept hk =>
    have hold := hk.symm.trans hi
    exact (h id inst hold ht).exec himage fun hop hboot => hg.adopted hop id inst hold hboot ht
  | updated write old hop ha hold hk =>
    obtain rfl := Option.some.inj (hi.symm.trans hk)
    have hwas : r.Targeted id old := ht.congr (updates_identity hop old).1 (updates_identity hop old).2
    rw [(updates_evidence hop).reclassify]
    exact .inr (.inl (hg.updated id write old hop ha hold hwas))
  | refreshed old hop hold hk =>
    obtain rfl := Option.some.inj (hi.symm.trans hk)
    obtain ⟨eid, rc, env, ep, hop, hu, rfl, h0⟩ := hop
    rw [hop, (update_reachability_evidence hu).reclassify]
    exact .inr (.inl (hg.refreshed eid rc env ep old hop hu h0 hold (ht.congr rfl rfl)))
  | stored inst hop => rw [hnew] at hop; cases hop
  | superseded old _ _ hk =>
    obtain rfl := Option.some.inj (hi.symm.trans hk)
    exact .inl rfl
  | retired _ old _ _ _ hk =>
    obtain rfl := Option.some.inj (hi.symm.trans hk)
    exact .inl rfl
  | dead old _ _ _ hk =>
    obtain rfl := Option.some.inj (hi.symm.trans hk)
    exact .inr (.inl rfl)
  | revalidated old hop _ hk =>
    -- no boot is live in the new epoch
    rw [hop]
    exact .inr (.inr (by simp [exec, begin_coordinator_epoch, RegistryAuthority.is_boot_live]))

/-- A new target was withdrawn before, and the call that records it writes no instance. -/
theorem exec_recorded_withdrawn {e : Event} (hclass : e.op.class = .tombstone ∨ e.op.class = .note)
    (hi : (r.exec e.scan e.op).2.instances[id]? = some inst)
    (h : r.instances[id]? = some inst → r.Withdrawn inst) : (r.exec e.scan e.op).2.Withdrawn inst := by
  have himage : e.op.class ≠ .image := by rcases hclass with hc | hc <;> rw [hc] <;> decide
  have hadopts : e.op.adopts ≠ true := fun hop => by simp [adopts_class hop] at hclass
  have hsame : (r.exec e.scan e.op).2.instances = r.instances :=
    (r.exec_frame e.scan himage).instances (by rcases hclass with hc | hc <;> simp [hc])
      (by rcases hclass with hc | hc <;> simp [hc])
  rw [hsame] at hi
  exact (h hi).exec himage fun hop => absurd hop hadopts

theorem TargetsWithdrawn.step {e : Event} (h : r.TargetsWithdrawn) (hs : Step r e t) (hg : r.KeepsTargets e) :
    t.TargetsWithdrawn := by
  rw [hs.state]
  by_cases himage : e.op.class = .image
  · obtain ⟨data, hop⟩ := Op.eq_load_from himage
    rw [hop]
    apply load_from_rule (P := TargetsWithdrawn)
    case refused => exact fun _ => h
    case broken =>
      intro ha hc
      have hread := hg.broken data hop ha hc
      generalize (imageRecords data).2 = s at hread ⊢
      exact hread
    case restored =>
      -- the recovered registry has no live boot
      intro _ _ id inst _ _
      refine .inr (.inr ?_)
      rw [restore_authority, RegistryAuthority.is_boot_live, (header_incarnations _).1]
      simp
  intro id inst hi ht
  rcases exec_targeted himage ht with ht | ⟨tomb, env, hop, ha, ht⟩ | ⟨record, env, hop, ha, ht⟩
  · rcases hnew : e.op.newInstance with _ | new
    · exact h.exec_kept hg himage hnew hi ht
    · exact h.exec_register hg hnew hi ht
  · refine exec_recorded_withdrawn (.inl (by rw [hop]; rfl)) hi fun hold => ?_
    exact hg.tombstone tomb env hop ha id inst hold ht
  · refine exec_recorded_withdrawn (.inr (by rw [hop]; rfl)) hi fun hold => ?_
    exact hg.invalidation record env hop ha id inst hold ht

/-- In every run whose calls record no target that is not withdrawn and bring no
target back, no query for current instances ranks an instance that a stored
tombstone or a recorded invalidation targets. -/
theorem targets_not_ranked (h : Lib.Reachable (Guarded Step fun r e => r.KeepsTargets e) fresh r) :
    ∀ scan q, scan.Perm r.instances.keys → q.current_only = true → ∀ id inst, r.instances[id]? = some inst →
      r.Targeted id inst → id ∉ (r.query scan q).rankedIds := by
  have hwithdrawn : r.TargetsWithdrawn := by
    apply h.inv TargetsWithdrawn
    · intro id inst hi
      simp [fresh_instances] at hi
    · exact fun _ _ _ hw hst => hw.step hst.1 hst.2
  have hreach : r.Reachable := by
    obtain ⟨es, hr⟩ := h
    exact ⟨es, hr.unguarded⟩
  exact fun scan q hscan hq id inst hi ht => (hwithdrawn id inst hi ht).not_ranked hreach hscan hq hi

/-- Where nothing is targeted, only a call that records a target or loads an image is conditional. -/
theorem KeepsTargets.untargeted {e : Event} (htomb : r.tombstones.isEmpty = true) (hinv : r.invalidations = [])
    (hclass : e.op.class = .inst ∨ e.op.class = .descriptor ∨ e.op.class = .incarnation) : r.KeepsTargets e := by
  have hnone : ∀ id inst, ¬ r.Targeted id inst := by
    rintro id inst (⟨key, tomb, hkey, _⟩ | ⟨record, hmem, _⟩)
    · rw [Std.ExtTreeMap.isEmpty_iff.1 htomb] at hkey
      simp at hkey
    · simp [hinv] at hmem
  constructor
  case tombstone =>
    intro tomb env hop
    simp [hop, Op.class] at hclass
  case invalidation =>
    intro record env hop
    simp [hop, Op.class] at hclass
  case registered => exact fun inst _ _ _ _ _ _ _ => hnone _ inst
  case updated => exact fun _ _ old _ _ _ ht => absurd ht (hnone _ old)
  case refreshed => exact fun _ _ _ _ old _ _ _ _ ht => absurd ht (hnone _ old)
  case adopted => exact fun _ _ inst _ _ ht => absurd ht (hnone _ inst)
  case broken =>
    intro data hop
    simp [hop, Op.class] at hclass

/-- A service is fenced behind the retirement of its instance. -/
theorem targets_not_ranked_retired :
    let s := fresh.after (Sample.setup ++ [.deregister ⟨5⟩ Sample.env, .create_tombstone (fence 7 5) Sample.env])
    ∀ scan q, scan.Perm s.instances.keys → q.current_only = true → ∀ id inst, s.instances[id]? = some inst →
      s.Targeted id inst → id ∉ (s.query scan q).rankedIds := by
  intro s
  have hretired : ∀ k ∈ (fresh.after (Sample.setup ++ [.deregister ⟨5⟩ Sample.env])).instances.keys,
      ∀ inst ∈ (fresh.after (Sample.setup ++ [.deregister ⟨5⟩ Sample.env])).instances[k]?,
      historical inst.lifecycle = true := by decide +kernel
  have hfenced : (fresh.after (Sample.setup ++ [.deregister ⟨5⟩ Sample.env])).KeepsTargets
      ((fresh.after (Sample.setup ++ [.deregister ⟨5⟩ Sample.env])).call (.create_tombstone (fence 7 5) Sample.env)) := by
    constructor
    case tombstone =>
      intro _ _ _ _ id inst hi _
      refine .inl (hretired id ?_ inst hi)
      rw [Std.ExtTreeMap.mem_keys, Std.ExtTreeMap.mem_iff_isSome_getElem?, hi]
      rfl
    case invalidation => exact fun _ _ hop => nomatch hop
    case registered => exact fun _ _ hop => nomatch hop
    case updated => exact fun _ _ _ hop => nomatch hop
    case refreshed => exact fun _ _ _ _ _ hop => nomatch hop
    case adopted => exact fun hop => nomatch hop
    case broken => exact fun _ hop => nomatch hop
  have hmeets : Meets (fun r op => r.KeepsTargets (r.call op)) fresh
      (Sample.setup ++ [.deregister ⟨5⟩ Sample.env, .create_tombstone (fence 7 5) Sample.env]) := by
    refine ⟨.untargeted ?_ ?_ (.inr (.inr rfl)), .untargeted ?_ ?_ (.inr (.inl rfl)), .untargeted ?_ ?_ (.inl rfl),
      .untargeted ?_ ?_ (.inl rfl), hfenced, trivial⟩ <;> decide +kernel
  obtain ⟨es, hrun⟩ := hmeets.calls
  exact targets_not_ranked ⟨es, hrun⟩

/-- A tombstone and an invalidation leave the instance that they target available. -/
theorem targeted_ranked :
    let tombstoned := Sample.registry.after [.create_tombstone (fence 7 5) Sample.env]
    let invalidated := Sample.registry.after [.invalidate Sample.invalidation Sample.env]
    (tombstoned.Reachable ∧ ∃ inst, tombstoned.instances[(⟨5⟩ : ServiceInstanceId)]? = some inst ∧
      tombstoned.Targeted ⟨5⟩ inst ∧
      ⟨5⟩ ∈ (tombstoned.query tombstoned.instances.keys { current_only := true }).rankedIds) ∧
    invalidated.Reachable ∧ ∃ inst, invalidated.instances[(⟨5⟩ : ServiceInstanceId)]? = some inst ∧
      invalidated.Targeted ⟨5⟩ inst ∧
      ⟨5⟩ ∈ (invalidated.query invalidated.instances.keys { current_only := true }).rankedIds := by
  intro tombstoned invalidated
  have hreach : ∀ ops, (Sample.registry.after ops).Reachable := Sample.registry_reachable.reachable.after
  constructor
  · have htarget : ∃ inst ∈ tombstoned.instances[(⟨5⟩ : ServiceInstanceId)]?,
        ∃ tomb ∈ tombstoned.tombstones[(⟨7⟩ : TombstoneId)]?, tomb.Targets ⟨5⟩ inst := by decide +kernel
    obtain ⟨inst, hi, tomb, hkey, ht⟩ := htarget
    exact ⟨hreach _, inst, hi, .inl ⟨⟨7⟩, tomb, hkey, ht⟩, by decide +kernel⟩
  · have htarget : ∃ inst ∈ invalidated.instances[(⟨5⟩ : ServiceInstanceId)]?,
        ∃ record ∈ invalidated.invalidations, record.Targets ⟨5⟩ inst := by decide +kernel
    obtain ⟨inst, hi, record, hmem, ht⟩ := htarget
    exact ⟨hreach _, inst, hi, .inr ⟨record, hmem, ht⟩, by decide +kernel⟩

end Registry

end RuntimeRegistry
