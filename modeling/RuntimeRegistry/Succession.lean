import RuntimeRegistry.Lifecycles
import RuntimeRegistry.Refusals
/-!
# The succession of the instances of a service

Each instance that a service accepts is meant to be newer than all it had before.
`register_instance` compares with the current record only, so a service that has
lost its newest record, by `deregister`, by `supersede` or over a failed
registration, takes the old generations again. What was accepted is in the
history, and the runs where the two agree are the ones that move forward.
-/
open Lib

namespace RuntimeRegistry

/-- The state that the registration of a call is checked in. -/
def Op.checkedIn (r : Registry) : Op → Registry
  | .supersede old_id _ _ =>
    match r.instances[old_id]? with
    | some old => r.markSuperseded old_id old
    | none => r
  | _ => r

namespace Registry

variable {r s t : Registry} {env : AuthorityEnvelope} {scan : List ServiceInstanceId} {inst : ServiceInstance}

/-! ## The history only grows -/

theorem supersede_history (r : Registry) (scan : List ServiceInstanceId) (old_id : ServiceInstanceId)
    (inst : ServiceInstance) (env : AuthorityEnvelope) :
    r.instance_history <+: (r.supersede scan old_id inst env).2.instance_history := by
  have hmarked : ∀ old, r.instance_history <+: ((r.markSuperseded old_id old).register_instance scan inst env).2.instance_history :=
    fun old => (List.prefix_append r.instance_history [old]).trans
      (register_instance_extends (r.markSuperseded old_id old) scan inst env)
  exact supersede_state_rule (P := fun t => r.instance_history <+: t.instance_history) List.prefix_rfl
    fun _ old _ _ => hmarked old

theorem exec_history (r : Registry) (scan : List ServiceInstanceId) {op : Op} (himage : op.class ≠ .image) :
    r.instance_history <+: (r.exec scan op).2.instance_history := by
  have hsame : ∀ t : Registry, t.instance_history = r.instance_history → r.instance_history <+: t.instance_history :=
    fun t ht => ht ▸ List.prefix_rfl
  by_cases hc : op.class = .inst
  swap
  · exact hsame _ ((r.exec_frame scan himage).instance_history hc)
  have hupdate : ∀ id write stale env, r.instance_history <+: (r.updateInstance id write stale env).2.instance_history := by
    intro id write stale env
    apply updateInstance_rule (P := fun o => r.instance_history <+: o.2.instance_history)
    · exact fun _ _ => List.prefix_rfl
    · exact fun _ _ _ => List.prefix_rfl
    · exact fun _ _ _ _ => List.prefix_rfl
    · exact fun _ _ _ _ => List.prefix_rfl
  cases op <;> simp only [Op.class, reduceCtorEq] at hc
  case register_instance inst env => exact register_instance_extends r scan inst env
  case supersede old_id inst env => exact supersede_history r scan old_id inst env
  case update_health => exact hupdate _ _ _ _
  case update_readiness => exact hupdate _ _ _ _
  case update_freshness => exact hupdate _ _ _ _
  case update_instance_reachability => exact hupdate _ _ _ _
  case update_reachability id rc env =>
    apply update_reachability_rule (P := fun o => r.instance_history <+: o.2.instance_history)
    · exact fun _ _ => List.prefix_rfl
    · exact fun _ _ _ => List.prefix_rfl
    · exact fun _ _ _ _ _ => List.prefix_rfl
    · intro _ ep _ _
      refine hsame _ ?_
      exact reclassifyOwner_rule (P := fun u => u.commit_registry_generation.instance_history = r.instance_history)
        _ rfl fun _ _ _ => rfl
  case deregister id env =>
    apply deregister_rule (P := fun o => r.instance_history <+: o.2.instance_history)
    · exact fun _ _ => List.prefix_rfl
    · exact fun _ _ => List.prefix_rfl
    · exact fun _ _ _ _ _ => List.prefix_rfl
    · exact fun _ inst _ _ => List.prefix_append _ [inst]

/-! ## Accepted instances -/

/-- The call returns and stores the instance that it registers: it is no repeat. -/
def Enrolls (r : Registry) (e : Event) (inst : ServiceInstance) : Prop :=
  e.op.newInstance = some inst ∧ (∃ reply, e.reply = .ok reply) ∧ ¬ (e.op.checkedIn r).Repeats e.scan inst

/-- A call of the run has stored the instance. -/
def Enrolled : Registry → List Event → ServiceInstance → Prop
  | _, [], _ => False
  | s, e :: es, inst => s.Enrolls e inst ∨ Enrolled (s.exec e.scan e.op).2 es inst

theorem supersede_returns_iff {old_id : ServiceInstanceId} : (r.supersede scan old_id inst env).Returns ↔
    r.Accepts env ∧ ∃ old, r.instances[old_id]? = some old ∧ (r.markSuperseded old_id old).Registrable scan inst := by
  apply supersede_rule (P := fun o => o.Returns ↔ _)
  case rejected => exact fun e ha => iff_of_false (Outcome.not_returns_error e _) fun h => ha h.1
  case unknown =>
    intro _ hnone e
    refine iff_of_false (Outcome.not_returns_error e _) ?_
    rintro ⟨_, old, hold, _⟩
    cases hnone.symm.trans hold
  case refused =>
    intro ha old hold e t ht
    refine iff_of_false (Outcome.not_returns_error e _) ?_
    rintro ⟨_, old', hold', hreg⟩
    obtain rfl : old = old' := Option.some.inj (hold.symm.trans hold')
    have hreturns := register_instance_returns_iff.2 ⟨show (r.markSuperseded old_id old).Accepts env from ha, hreg⟩
    rw [ht] at hreturns
    exact Outcome.not_returns_error e t hreturns
  case registered =>
    intro ha old hold id t ht
    have hreturns : ((r.markSuperseded old_id old).register_instance scan inst env).Returns := by
      rw [ht]
      exact Outcome.returns_ok id t
    exact iff_of_true (Outcome.returns_ok _ _) ⟨ha, old, hold, (register_instance_returns_iff.1 hreturns).2⟩

/-- A registration that returns passes the checks in the state it is checked in, and
so does the envelope. -/
theorem registration_checked {e : Event} (hs : Step r e t) (hnew : e.op.newInstance = some inst)
    (hreply : ∃ reply, e.reply = .ok reply) :
    (e.op.checkedIn r).Registrable e.scan inst ∧ ∃ env, e.op.envelope = some env ∧ r.Accepts env := by
  have hreturns : (r.exec e.scan e.op).Returns := by
    rw [hs.2]
    exact hreply
  rcases hop : e.op <;> rw [hop] at hnew hreturns <;> simp only [Op.newInstance, reduceCtorEq, Option.some.injEq] at hnew
  case register_instance inst' env =>
    subst hnew
    obtain ⟨ha, hreg⟩ := register_instance_returns_iff.1 ((Outcome.map_returns _ _).1 hreturns)
    exact ⟨hreg, env, rfl, ha⟩
  case supersede old_id inst' env =>
    subst hnew
    obtain ⟨ha, old, hold, hreg⟩ := supersede_returns_iff.1 ((Outcome.map_returns _ _).1 hreturns)
    exact ⟨by simpa only [Op.checkedIn, hold] using hreg, env, rfl, ha⟩

/-- The history shows an instance of the service and the generation. -/
def Recorded (r : Registry) (inst : ServiceInstance) : Prop :=
  ∃ x ∈ r.instance_history, x.service_id = inst.service_id ∧ x.instance_generation = inst.instance_generation

theorem Recorded.mono (h : r.Recorded inst) (hgrown : r.instance_history <+: t.instance_history) : t.Recorded inst := by
  obtain ⟨x, hx, hsame⟩ := h
  exact ⟨x, hgrown.subset hx, hsame⟩

/-- A registration that returns and is no repeat leaves the instance in the history. -/
theorem register_instance_appends (hnew : ¬ r.Repeats scan inst) (h : (r.register_instance scan inst env).Returns) :
    { inst with instance_id := r.assignedId inst } ∈ (r.register_instance scan inst env).2.instance_history := by
  revert h
  apply register_instance_rule
    (P := fun o => o.Returns → { inst with instance_id := r.assignedId inst } ∈ o.2.instance_history)
  case rejected => exact fun e _ h => absurd h (Outcome.not_returns_error e _)
  case unregistered => exact fun _ _ e h => absurd h (Outcome.not_returns_error e _)
  case repeated => exact fun _ hs id current hc hgen heq _ => absurd ⟨hs, id, current, hc, hgen, heq⟩ hnew
  case stale => exact fun _ _ _ _ _ _ _ e h => absurd h (Outcome.not_returns_error e _)
  case superseded => exact fun _ _ _ _ _ _ => (bindInstance_appends _ _).2
  case fenced => exact fun _ _ _ _ e h => absurd h (Outcome.not_returns_error e _)
  case first => exact fun _ _ _ _ => (bindInstance_appends _ _).2

theorem supersede_appends {old_id : ServiceInstanceId}
    (hnew : ∀ old, r.instances[old_id]? = some old → ¬ (r.markSuperseded old_id old).Repeats scan inst)
    (h : (r.supersede scan old_id inst env).Returns) :
    { inst with instance_id := r.assignedId inst } ∈ (r.supersede scan old_id inst env).2.instance_history := by
  revert h
  apply supersede_rule
    (P := fun o => o.Returns → { inst with instance_id := r.assignedId inst } ∈ o.2.instance_history)
  case rejected => exact fun e _ h => absurd h (Outcome.not_returns_error e _)
  case unknown => exact fun _ _ e h => absurd h (Outcome.not_returns_error e _)
  case refused => exact fun _ _ _ e _ _ h => absurd h (Outcome.not_returns_error e _)
  case registered =>
    intro _ old hold id t ht _
    have hreturns : ((r.markSuperseded old_id old).register_instance scan inst env).Returns := by
      rw [ht]
      exact Outcome.returns_ok id t
    have happended := register_instance_appends (hnew old hold) hreturns
    rwa [ht] at happended

/-- An instance that a call enrolls is in the history under the id it is stored under. -/
theorem Enrolls.appended {e : Event} (h : r.Enrolls e inst) (hs : Step r e t) :
    { inst with instance_id := r.assignedId inst } ∈ t.instance_history := by
  obtain ⟨hnew, hreply, hrepeat⟩ := h
  have hreturns : (r.exec e.scan e.op).Returns := by
    rw [hs.2]
    exact hreply
  rw [hs.state]
  rcases hop : e.op <;> rw [hop] at hnew hreturns hrepeat <;>
    simp only [Op.newInstance, reduceCtorEq, Option.some.injEq] at hnew
  case register_instance inst' env =>
    subst hnew
    exact register_instance_appends hrepeat ((Outcome.map_returns _ _).1 hreturns)
  case supersede old_id inst' env =>
    subst hnew
    refine supersede_appends (fun old hold => ?_) ((Outcome.map_returns _ _).1 hreturns)
    simpa only [Op.checkedIn, hold] using hrepeat

theorem Enrolls.recorded {e : Event} (h : r.Enrolls e inst) (hs : Step r e t) : t.Recorded inst :=
  ⟨_, h.appended hs, rfl, rfl⟩

/-- What a run has accepted is in the history at its end. -/
theorem enrolled_recorded {es : List Event} (hr : Run (Guarded Step fun _ e => e.noLoad) s es t)
    (h : Enrolled s es inst) : t.Recorded inst := by
  induction hr with
  | nil => exact h.elim
  | cons hst hrun ih =>
    rcases h with h | h
    · refine hrun.inv (fun u => u.Recorded inst) (fun u e v hu hs => ?_) (h.recorded hst.1)
      rw [hs.1.state]
      exact hu.mono (exec_history u e.scan hs.2.class_ne)
    · rw [← hst.1.state] at h
      exact ih h

/-! ## Runs that move forward -/

/-- What the checks of a registration stop of the generations that are not new: the
current record is as new, or there is none and a tombstone fences the service. -/
def Barred (r : Registry) (inst : ServiceInstance) : Prop :=
  (∃ k c, r.IsCurrent inst.service_id k c ∧ inst.instance_generation ≤ c.instance_generation) ∨
  (∀ k c, ¬ r.IsCurrent inst.service_id k c) ∧
    r.covered_by_tombstone (text "ServiceId") (to_string inst.service_id.value) inst.instance_generation.value

theorem Barred.not_admissible (h : r.Barred inst) (hscan : scan.Perm r.instances.keys) : ¬ r.Admissible scan inst := by
  rintro ⟨_, hadm⟩
  rcases hc : r.currentInstance scan inst.service_id with _ | ⟨id, current⟩ <;> rw [hc] at hadm
  · rcases h with ⟨k, c, hcur, _⟩ | ⟨_, hcov⟩
    · exact currentInstance_none hscan hc k c hcur
    · exact hadm.1 hcov
  · rcases h with ⟨k, c, hcur, hle⟩ | ⟨hno, _⟩
    · exact absurd hadm.1 (hle.trans (currentInstance_max hscan hc hcur)).not_gt
    · exact hno id current (currentInstance_some hc)

/-- The call brings no generation that the history of the service has reached, unless
the checks bar it; and it supersedes an instance of the service and, where it only
repeats the current record, one of a lower generation. -/
structure Orderly (r : Registry) (e : Event) : Prop where
  replay : ∀ inst env, e.op.newInstance = some inst → e.op.envelope = some env → r.Accepts env →
    ∀ x ∈ (e.op.checkedIn r).instance_history, x.service_id = inst.service_id →
      inst.instance_generation ≤ x.instance_generation → (e.op.checkedIn r).Barred inst
  supersession : ∀ old_id inst env old, e.op = .supersede old_id inst env → r.instances[old_id]? = some old →
    (r.markSuperseded old_id old).Registrable e.scan inst → inst.service_id = old.service_id ∧
      ((r.markSuperseded old_id old).Repeats e.scan inst → old.instance_generation < inst.instance_generation)

theorem checkedIn_keys (op : Op) (hscan : scan.Perm r.instances.keys) : scan.Perm (op.checkedIn r).instances.keys := by
  unfold Op.checkedIn
  split
  · split
    · exact hscan.trans (keys_insert_perm ‹_›)
    · exact hscan
  · exact hscan

theorem checkedIn_history (op : Op) (r : Registry) : r.instance_history <+: (op.checkedIn r).instance_history := by
  unfold Op.checkedIn
  split
  · split
    · exact List.prefix_append _ _
    · exact List.prefix_rfl
  · exact List.prefix_rfl

/-- An accepted instance is newer than all that the history shows of its service. -/
theorem newer_than_history {e : Event} (hs : Step r e t) (horder : r.Orderly e) (h : r.Enrolls e inst)
    {x : ServiceInstance} (hx : x ∈ (e.op.checkedIn r).instance_history) (hservice : x.service_id = inst.service_id) :
    x.instance_generation < inst.instance_generation := by
  obtain ⟨hnew, hreply, hrepeat⟩ := h
  obtain ⟨hreg, env, henv, ha⟩ := registration_checked hs hnew hreply
  have hadm := hreg.resolve_left hrepeat
  by_contra hle
  have hbarred := horder.replay inst env hnew henv ha x hx hservice (not_lt.1 hle)
  exact hbarred.not_admissible (checkedIn_keys e.op hs.1) hadm

/-- In every run without `load_from` whose calls are orderly, an accepted instance is
newer than every instance of its service that the run accepted before, and what is
accepted as a successor is one of the instance's own service, and newer. -/
theorem instance_generations_forward {es : List Event} {e : Event}
    (h : Run (Guarded Step fun r e => e.noLoad ∧ r.Orderly e) s es r) (hs : Step r e t) (horder : r.Orderly e) :
    (∀ x y, Enrolled s es x → r.Enrolls e y → x.service_id = y.service_id →
      x.instance_generation < y.instance_generation) ∧
    ∀ old_id inst env, e.op = .supersede old_id inst env → (∃ reply, e.reply = .ok reply) →
      ∃ old, r.instances[old_id]? = some old ∧ inst.service_id = old.service_id ∧
        old.instance_generation < inst.instance_generation := by
  constructor
  · intro x y hx hy hservice
    obtain ⟨x', hx', hsame, hgen⟩ := enrolled_recorded (h.mono fun _ _ _ hg => ⟨hg.1, hg.2.1⟩) hx
    rw [← hgen]
    exact newer_than_history hs horder hy ((checkedIn_history e.op r).subset hx') (hsame.trans hservice)
  · intro old_id inst env hop hreply
    have hreturns : (r.supersede e.scan old_id inst env).Returns := by
      have hexec := hs.2
      rw [hop] at hexec
      refine (Outcome.map_returns (fun _ => Reply.done) _).1 ?_
      show (r.exec e.scan (.supersede old_id inst env)).Returns
      rw [hexec]
      exact hreply
    obtain ⟨_, old, hold, hreg⟩ := supersede_returns_iff.1 hreturns
    obtain ⟨hservice, hlower⟩ := horder.supersession old_id inst env old hop hold hreg
    refine ⟨old, hold, hservice, ?_⟩
    by_cases hrepeat : (r.markSuperseded old_id old).Repeats e.scan inst
    · exact hlower hrepeat
    · -- the old instance is in the history that the new one is checked against
      have hchecked : e.op.checkedIn r = r.markSuperseded old_id old := by
        rw [hop, Op.checkedIn, hold]
      have henrolls : r.Enrolls e inst := ⟨by rw [hop]; rfl, hreply, by rwa [hchecked]⟩
      refine newer_than_history hs horder henrolls ?_ hservice.symm
      rw [hchecked]
      exact List.mem_append_right _ List.mem_cons_self

/-! ## The sample service -/

end Registry

namespace Sample

/-- The service of the sample before its first instance. -/
def founded : Registry := Registry.fresh.after [.adopt_worker ⟨1⟩, .register_service service env]

def register (id generation : UInt64) : Op := .register_instance (incarnation id generation) env

end Sample

namespace Registry

theorem Enrolled.append {es fs : List Event} (hr : Run Step s es r) (h : Enrolled r fs inst) : Enrolled s (es ++ fs) inst := by
  induction hr with
  | nil => exact h
  | cons hs _ ih => exact .inr (hs.state ▸ ih h)

theorem founded_enrolls : Sample.founded.Enrolls (Sample.founded.call (Sample.register 5 1)) (Sample.incarnation 5 1) := by
  refine ⟨rfl, ?_, ?_⟩
  · exact exists_ok (by decide +kernel)
  · rintro ⟨_, id, current, hc, _⟩
    have hnone : Sample.founded.currentInstance Sample.founded.instances.keys ⟨3⟩ = none := by decide +kernel
    cases hnone.symm.trans hc

/-- The second generation of the sample follows the first. -/
theorem instance_generations_forward_second :
    (∀ x y, Enrolled Sample.founded [Sample.founded.call (Sample.register 5 1)] x →
      Sample.registry.Enrolls (Sample.registry.call (Sample.register 6 2)) y → x.service_id = y.service_id →
      x.instance_generation < y.instance_generation) ∧
    ∀ old_id inst env, (Sample.registry.call (Sample.register 6 2)).op = .supersede old_id inst env →
      (∃ reply, (Sample.registry.call (Sample.register 6 2)).reply = .ok reply) →
      ∃ old, Sample.registry.instances[old_id]? = some old ∧ inst.service_id = old.service_id ∧
        old.instance_generation < inst.instance_generation := by
  have hempty : Sample.founded.instance_history.length = 0 := by decide +kernel
  have hfirst : Sample.founded.Orderly (Sample.founded.call (Sample.register 5 1)) := by
    constructor
    · intro inst env _ _ _ x hx
      rw [show ((Sample.founded.call (Sample.register 5 1)).op.checkedIn Sample.founded).instance_history = [] from
        List.length_eq_zero_iff.1 hempty] at hx
      cases hx
    · intro _ _ _ _ hop
      cases hop
  have hsecond : Sample.registry.Orderly (Sample.registry.call (Sample.register 6 2)) := by
    have hlower : ∀ x ∈ Sample.registry.instance_history, ¬ (⟨2⟩ : ServiceInstanceGeneration) ≤ x.instance_generation := by
      decide +kernel
    constructor
    · rintro inst env ⟨⟩ _ _ x hx _ hle
      exact absurd hle (hlower x hx)
    · intro _ _ _ _ hop
      cases hop
  have hrun : Run (Guarded Step fun r e => e.noLoad ∧ r.Orderly e) Sample.founded
      [Sample.founded.call (Sample.register 5 1)] Sample.registry :=
    .single ⟨Sample.founded.step_call _, fun _ hop => (nomatch hop), hfirst⟩
  exact instance_generations_forward hrun (Sample.registry.step_call _) hsecond

/-- A service that deregistered its instance takes the same generation again. -/
theorem deregistered_generation_returns :
    let last := Sample.registry.after [.deregister ⟨5⟩ Sample.env]
    ∃ es, Run (Guarded Step fun _ e => e.noLoad) fresh es last ∧ Enrolled fresh es (Sample.incarnation 5 1) ∧
      last.Enrolls (last.call (Sample.register 6 1)) (Sample.incarnation 6 1) := by
  intro last
  have hregister : Step Sample.founded (Sample.founded.call (Sample.register 5 1)) Sample.registry :=
    Sample.founded.step_call _
  have hderegister : Step Sample.registry (Sample.registry.call (.deregister ⟨5⟩ Sample.env)) last :=
    Sample.registry.step_call _
  obtain ⟨es, hr⟩ : Sample.founded.ReachableWithoutLoad := ReachableWithoutLoad.after (.refl _) (by simp)
  refine ⟨es ++ [Sample.founded.call (Sample.register 5 1), Sample.registry.call (.deregister ⟨5⟩ Sample.env)], ?_, ?_, ?_⟩
  · refine hr.append (.cons ⟨hregister, fun _ hop => nomatch hop⟩ (.single ⟨hderegister, fun _ hop => nomatch hop⟩))
  · exact .append hr.unguarded (.inl founded_enrolls)
  · refine ⟨rfl, exists_ok (by decide +kernel), ?_⟩
    rintro ⟨_, id, current, hc, _⟩
    have hnone : last.currentInstance last.instances.keys ⟨3⟩ = none := by decide +kernel
    cases hnone.symm.trans hc

end Registry

end RuntimeRegistry
