import RuntimeRegistry.Lib.Tables
import RuntimeRegistry.Changes
/-!
# Isolation of the workers

The updates of an instance, `deregister` and the ends of a lease check that the
boot of their envelope is live, not that the record is its own; `renew_lease`
looks at the boot of the leased instance. So a call is confined to the records
of its own boot only where its guards happen to refuse the others.
-/
open Lib Lib.Table

namespace RuntimeRegistry

/-- The calls on one instance or one lease. -/
def Op.scoped : Op → Bool
  | .update_health .. | .update_readiness .. | .update_freshness .. | .update_instance_reachability ..
  | .deregister .. | .expire_lease .. | .revoke_lease .. | .renew_lease .. => true
  | _ => false

namespace Registry

variable {r : Registry} {env : AuthorityEnvelope}

/-- The call of a live boot changes no stored instance and no stored lease of
another live boot. -/
def Isolated (r : Registry) (op : Op) : Prop :=
  op.scoped = true → ∀ scan env b, op.envelope = some env → r.authority.is_boot_live env.boot = true → b ≠ env.boot →
    r.authority.is_boot_live b = true →
    (∀ (k : ServiceInstanceId) (inst : ServiceInstance), r.instances[k]? = some inst → inst.boot = b →
      (r.exec scan op).2.instances[k]? = some inst) ∧
    ∀ (k : LeaseId) (lease : LeaseDescriptor), r.leases[k]? = some lease → lease.boot = b →
      (r.exec scan op).2.leases[k]? = some lease

/-- The boot is a live one, and not that of the envelope. -/
def Foreign (r : Registry) (env : AuthorityEnvelope) (boot : WorkerBootId) : Prop :=
  boot ≠ env.boot ∧ r.authority.is_boot_live boot = true

/-- The checks of `renew_lease` that a stored lease can fail. -/
def RefusesRenewal (r : Registry) (env : AuthorityEnvelope) (lease : LeaseDescriptor) : Prop :=
  lease.state = LeaseState.REVOKED ∨ (∃ inst, r.instances[lease.service_instance]? = some inst ∧ inst.boot ≠ env.boot) ∨
    (env.lease_generation.value ≠ 0 ∧ env.lease_generation ≠ lease.generation)

/-- An update finds no foreign instance that its guards let it write, or finds it
already written and classified. -/
def ConfinedUpdate (r : Registry) (id : ServiceInstanceId) (write : ServiceInstance → ServiceInstance)
    (env : AuthorityEnvelope) : Prop :=
  r.Accepts env → ∀ inst, r.instances[id]? = some inst → r.Foreign env inst.boot →
    generation_is_current_generation env inst = true → r.reclassify_lifecycle (write inst) = inst

/-- The call finds no foreign record that its guards let it change. -/
def Confined (r : Registry) : Op → Prop
  | .update_health id h env => r.ConfinedUpdate id (fun inst => { inst with health := h }) env
  | .update_readiness id rd env => r.ConfinedUpdate id (fun inst => { inst with readiness := rd }) env
  | .update_freshness id f env => r.ConfinedUpdate id (fun inst => { inst with freshness := f }) env
  | .update_instance_reachability id rc env => r.ConfinedUpdate id (fun inst => { inst with reachability := rc }) env
  | .deregister id env => r.Accepts env → ∀ inst, r.instances[id]? = some inst → r.Foreign env inst.boot →
      generation_is_current_generation env inst = true → inst.lifecycle = Lifecycle.RETIRED
  | .expire_lease id env | .revoke_lease id env => r.Accepts env → ∀ lease, r.leases[id]? = some lease →
      r.Foreign env lease.boot → lease.state ≠ LeaseState.ACTIVE
  | .renew_lease id env => r.Accepts env → ∀ lease, r.leases[id]? = some lease → r.Foreign env lease.boot →
      r.RefusesRenewal env lease ∨ lease.state = LeaseState.ACTIVE
  | _ => True

/-! ## One call -/

/-- The instances and leases of other live boots are as before. -/
def Spared (r : Registry) (env : AuthorityEnvelope) (t : Registry) : Prop :=
  (∀ (k : ServiceInstanceId) (inst : ServiceInstance), r.instances[k]? = some inst → r.Foreign env inst.boot →
    t.instances[k]? = some inst) ∧
  ∀ (k : LeaseId) (lease : LeaseDescriptor), r.leases[k]? = some lease → r.Foreign env lease.boot →
    t.leases[k]? = some lease

theorem spared_of_same {t : Registry} (hi : t.instances = r.instances) (hl : t.leases = r.leases) : r.Spared env t := by
  refine ⟨fun k inst h _ => ?_, fun k lease h _ => ?_⟩
  · rwa [hi]
  · rwa [hl]

theorem spared_insert_instance {t : Registry} {id : ServiceInstanceId} {inst x : ServiceInstance}
    (hold : r.instances[id]? = some inst) (hi : t.instances = r.instances.insert id x) (hl : t.leases = r.leases) :
    r.Spared env t ↔ (r.Foreign env inst.boot → x = inst) := by
  rw [Spared, hi, hl]
  have hkeeps := insert_keeps_iff (P := fun inst => r.Foreign env inst.boot) (m := r.instances) (a := id) (v := x)
  rw [hkeeps]
  refine ⟨fun h => h.1 inst hold, fun h => ⟨fun y hy => ?_, fun _ _ h _ => h⟩⟩
  obtain rfl := Option.some.inj (hold.symm.trans hy)
  exact h

theorem spared_insert_lease {t : Registry} {id : LeaseId} {lease x : LeaseDescriptor}
    (hold : r.leases[id]? = some lease) (hi : t.instances = r.instances) (hl : t.leases = r.leases.insert id x) :
    r.Spared env t ↔ (r.Foreign env lease.boot → x = lease) := by
  rw [Spared, hi, hl]
  have hkeeps := insert_keeps_iff (P := fun lease => r.Foreign env lease.boot) (m := r.leases) (a := id) (v := x)
  rw [hkeeps]
  refine ⟨fun h => h.2 lease hold, fun h => ⟨fun _ _ h _ => h, fun y hy => ?_⟩⟩
  obtain rfl := Option.some.inj (hold.symm.trans hy)
  exact h

theorem updateInstance_spares (id : ServiceInstanceId) (write : ServiceInstance → ServiceInstance)
    (stale : RegistryError) :
    r.Spared env (r.updateInstance id write stale env).2 ↔ r.ConfinedUpdate id write env := by
  refine updateInstance_rule (P := fun o => r.Spared env o.2 ↔ r.ConfinedUpdate id write env) ?_ ?_ ?_ ?_
  · exact fun _ hrej => iff_of_true (spared_of_same rfl rfl) fun ha => absurd ha hrej
  · intro _ hnone _
    refine iff_of_true (spared_of_same rfl rfl) fun _ inst hi => ?_
    cases hnone.symm.trans hi
  · intro _ inst hi hgen
    refine iff_of_true (spared_of_same rfl rfl) fun _ inst' hi' _ hgen' => ?_
    obtain rfl := Option.some.inj (hi.symm.trans hi')
    exact absurd hgen' (by rw [hgen]; exact Bool.false_ne_true)
  · intro ha inst hi hgen
    refine Iff.trans (spared_insert_instance (x := r.reclassify_lifecycle (write inst)) hi rfl rfl) ⟨fun h _ inst' hi' hf _ => ?_, fun h hf => h ha inst hi hf hgen⟩
    obtain rfl := Option.some.inj (hi.symm.trans hi')
    exact h hf

theorem deregister_spares (id : ServiceInstanceId) :
    r.Spared env (r.deregister id env).2 ↔ r.Confined (.deregister id env) := by
  refine deregister_rule (P := fun o => r.Spared env o.2 ↔ r.Confined (.deregister id env)) ?_ ?_ ?_ ?_
  · exact fun _ hrej => iff_of_true (spared_of_same rfl rfl) fun ha => absurd ha hrej
  · intro _ hnone
    refine iff_of_true (spared_of_same rfl rfl) fun _ inst hi => ?_
    cases hnone.symm.trans hi
  · intro _ inst hi hgen _
    refine iff_of_true (spared_of_same rfl rfl) fun _ inst' hi' _ hgen' => ?_
    obtain rfl := Option.some.inj (hi.symm.trans hi')
    exact absurd hgen' (by rw [hgen]; exact Bool.false_ne_true)
  · intro ha inst hi hgen
    have hretired : { inst with lifecycle := Lifecycle.RETIRED } = inst ↔ inst.lifecycle = Lifecycle.RETIRED :=
      ⟨fun h => (congrArg (·.lifecycle) h).symm, fun h => by rw [← h]⟩
    refine Iff.trans (spared_insert_instance (x := { inst with lifecycle := Lifecycle.RETIRED }) hi rfl rfl) ?_
    rw [hretired]
    refine ⟨fun h _ inst' hi' hf _ => ?_, fun h hf => h ha inst hi hf hgen⟩
    obtain rfl := Option.some.inj (hi.symm.trans hi')
    exact h hf

theorem endLease_spares (id : LeaseId) {state : LeaseState} (hstate : state ≠ .ACTIVE) :
    r.Spared env (r.endLease id state env).2 ↔ (r.Accepts env → ∀ lease, r.leases[id]? = some lease →
      r.Foreign env lease.boot → lease.state ≠ LeaseState.ACTIVE) := by
  refine endLease_rule (P := fun o => r.Spared env o.2 ↔ (r.Accepts env → ∀ lease, r.leases[id]? = some lease →
      r.Foreign env lease.boot → lease.state ≠ LeaseState.ACTIVE)) ?_ ?_ ?_ ?_
  · exact fun _ hrej => iff_of_true (spared_of_same rfl rfl) fun ha => absurd ha hrej
  · intro _ hnone
    refine iff_of_true (spared_of_same rfl rfl) fun _ lease hl => ?_
    cases hnone.symm.trans hl
  · intro _ lease hl hinactive
    refine iff_of_true (spared_of_same rfl rfl) fun _ lease' hl' _ => ?_
    obtain rfl := Option.some.inj (hl.symm.trans hl')
    exact hinactive
  · intro ha lease hl hactive
    have hends : { lease with state := Enum.named state } ≠ lease := by
      intro h
      have hs := congrArg LeaseDescriptor.state h
      rw [hactive] at hs
      exact hstate (Enum.named.inj hs)
    refine Iff.trans (spared_insert_lease (x := { lease with state := Enum.named state }) hl rfl rfl) ⟨fun h _ lease' hl' hf => ?_, fun h hf => absurd hactive (h ha lease hl hf)⟩
    obtain rfl := Option.some.inj (hl.symm.trans hl')
    exact absurd (h hf) hends

theorem renew_lease_spares (id : LeaseId) :
    r.Spared env (r.renew_lease id env).2 ↔ r.Confined (.renew_lease id env) := by
  refine authorized_rule (P := fun o => r.Spared env o.2 ↔ r.Confined (.renew_lease id env)) ?_ fun ha => ?_
  · exact fun _ hrej => iff_of_true (spared_of_same rfl rfl) fun ha => absurd ha hrej
  have hrefused : ∀ {lease}, r.leases[id]? = some lease → r.RefusesRenewal env lease →
      (r.Spared env r.countStale ↔ r.Confined (.renew_lease id env)) := by
    intro lease hl hrefuses
    refine iff_of_true (spared_of_same rfl rfl) fun _ lease' hl' _ => ?_
    obtain rfl := Option.some.inj (hl.symm.trans hl')
    exact .inl hrefuses
  split
  · rename_i hnone
    refine iff_of_true (spared_of_same rfl rfl) fun _ lease hl => ?_
    cases hnone.symm.trans hl
  rename_i lease hl
  split_ifs with hrevoked hboot hgen
  · exact hrefused hl (.inl hrevoked)
  · refine hrefused hl (.inr (.inl ?_))
    rcases hi : r.instances[lease.service_instance]? with _ | inst
    · simp [hi] at hboot
    · exact ⟨inst, rfl, by simpa [hi] using hboot⟩
  · exact hrefused hl (.inr (.inr hgen))
  have hnot : ¬ r.RefusesRenewal env lease := by
    rintro (h | ⟨inst, hi, hb⟩ | h)
    · exact hrevoked h
    · exact hboot (by simp [hi, hb])
    · exact hgen h
  have hactive : { lease with state := LeaseState.ACTIVE } = lease ↔ lease.state = LeaseState.ACTIVE :=
    ⟨fun h => (congrArg (·.state) h).symm, fun h => by rw [← h]⟩
  refine Iff.trans (spared_insert_lease (x := { lease with state := LeaseState.ACTIVE }) hl rfl rfl) ?_
  rw [hactive]
  refine ⟨fun h _ lease' hl' hf => ?_, fun h hf => (h ha lease hl hf).resolve_left hnot⟩
  obtain rfl := Option.some.inj (hl.symm.trans hl')
  exact .inr (h hf)

/-- A scoped call spares the records of other live boots if and only if it is confined. -/
theorem exec_spares {op : Op} (hop : op.scoped = true) (henv : op.envelope = some env) (scan : List ServiceInstanceId) :
    r.Spared env (r.exec scan op).2 ↔ r.Confined op := by
  cases op <;> simp only [Op.scoped, Bool.false_eq_true] at hop <;> cases henv <;>
    simp only [exec, Outcome.map_snd]
  case update_health id h => exact updateInstance_spares id _ _
  case update_readiness id rd => exact updateInstance_spares id _ _
  case update_freshness id f => exact updateInstance_spares id _ _
  case update_instance_reachability id rc => exact updateInstance_spares id _ _
  case deregister id => exact deregister_spares id
  case expire_lease id => exact endLease_spares id (by decide)
  case revoke_lease id => exact endLease_spares id (by decide)
  case renew_lease id => exact renew_lease_spares id

theorem scoped_envelope {op : Op} (hop : op.scoped = true) : ∃ env, op.envelope = some env := by
  cases op <;> simp only [Op.scoped, Bool.false_eq_true] at hop <;> exact ⟨_, rfl⟩

theorem confined_of_rejected {op : Op} (henv : op.envelope = some env) (h : ¬ r.Accepts env) : r.Confined op := by
  cases op <;> simp only [Op.envelope, Option.some.injEq, reduceCtorEq] at henv <;> subst henv
  all_goals first | exact fun ha => absurd ha h | trivial

theorem confined_of_unscoped {op : Op} (hop : op.scoped = false) : r.Confined op := by
  cases op <;> simp only [Op.scoped, Bool.true_eq_false] at hop <;> trivial

/-- A call is isolated if and only if every foreign record it reaches is refused by
its guards, or is already as the call would leave it. -/
theorem isolated_iff (r : Registry) (op : Op) : r.Isolated op ↔ r.Confined op := by
  by_cases hop : op.scoped = true
  swap
  · exact iff_of_true (fun h => absurd h hop) (confined_of_unscoped (Bool.eq_false_iff.2 hop))
  obtain ⟨env, henv⟩ := scoped_envelope hop
  refine ⟨fun h => ?_, fun h _ scan env' b henv' _ hb hlive => ?_⟩
  · by_cases ha : r.Accepts env
    · refine (exec_spares hop henv r.instances.keys).1 ⟨fun k inst hi hf => ?_, fun k lease hl hf => ?_⟩
      · exact (h hop _ env inst.boot henv ha.2 hf.1 hf.2).1 k inst hi rfl
      · exact (h hop _ env lease.boot henv ha.2 hf.1 hf.2).2 k lease hl rfl
    · exact confined_of_rejected henv ha
  · obtain rfl : env = env' := Option.some.inj (henv.symm.trans henv')
    have hspared := (exec_spares hop henv scan).2 h
    exact ⟨fun k inst hi hboot => hspared.1 k inst hi ⟨hboot ▸ hb, hboot ▸ hlive⟩,
      fun k lease hl hboot => hspared.2 k lease hl ⟨hboot ▸ hb, hboot ▸ hlive⟩⟩

/-- The second worker of the sample degrades the instance of the first. -/
theorem update_health_crosses :
    let s := Sample.registry.after [.adopt_worker ⟨2⟩]
    let env : AuthorityEnvelope := { epoch := ⟨1⟩, boot := ⟨102⟩ }
    s.Reachable ∧ s.authority.is_boot_live ⟨101⟩ = true ∧ s.Accepts env ∧
      ¬ s.Isolated (.update_health ⟨5⟩ Health.DEGRADED env) := by
  intro s env
  have hstored : ∃ inst ∈ s.instances[(⟨5⟩ : ServiceInstanceId)]?, inst.boot = ⟨101⟩ ∧ inst.health = Health.HEALTHY := by
    decide +kernel
  have hwritten : ∀ inst ∈ (s.exec s.instances.keys (.update_health ⟨5⟩ Health.DEGRADED env)).2.instances[
      (⟨5⟩ : ServiceInstanceId)]?, inst.health = Health.DEGRADED := by decide +kernel
  obtain ⟨inst, hi, hb, hh⟩ := hstored
  refine ⟨Sample.registry_reachable.reachable.after _, by decide +kernel, by decide +kernel, fun h => ?_⟩
  have hkept := (h rfl s.instances.keys env ⟨101⟩ rfl (by decide +kernel) (by decide) (by decide +kernel)).1 ⟨5⟩ inst hi hb
  have hdegraded := hwritten inst hkept
  rw [hh] at hdegraded
  cases hdegraded

end Registry

end RuntimeRegistry
