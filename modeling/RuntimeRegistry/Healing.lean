import RuntimeRegistry.Aggregates
import RuntimeRegistry.Claiming
import RuntimeRegistry.Targets
/-!
# Health that remembers

A classification stores the aggregated health over the reported one and the next
starts from it, so an endpoint that ailed once counts until the health is reported
again. `SinceReport` tells what was seen since: the health is the reported one under
all the ailments seen, where only those of the end should count.
-/
open Lib

namespace RuntimeRegistry

open Ailment (afflict afflict_joins)

namespace Ailment

/-- What the health of an instance is worth by itself. -/
def own (h : Enum Health) : Ailment :=
  if h = Health.UNHEALTHY then unhealthy else if h = Health.DEGRADED then degraded else none

/-- A health that is neither unhealthy nor degraded shows which ailment it has. -/
theorem afflict_inj {h : Enum Health} (hu : h ≠ Health.UNHEALTHY) (hd : h ≠ Health.DEGRADED) {a b : Ailment} :
    afflict h a = afflict h b ↔ a = b := by
  cases a <;> cases b <;> simp [afflict, hu, hd, hu.symm, hd.symm]

/-- One ailment more does not show if and only if the health and the others account
for it. -/
theorem afflict_sup_iff (h : Enum Health) (a b : Ailment) : afflict h (a ⊔ b) = afflict h a ↔ b ≤ own h ⊔ a := by
  unfold own
  split_ifs with hu hd
  · subst hu
    exact iff_of_true (by cases a <;> cases b <;> rfl) (by cases a <;> cases b <;> decide)
  · subst hd
    cases a <;> cases b <;> decide
  · rw [afflict_inj hu hd, sup_eq_left, ← bot_eq, bot_sup_eq]

end Ailment

namespace Registry

variable {r s t : Registry} {k : ServiceInstanceId} {inst old : ServiceInstance} {e : Event}

/-! ## Reports and evaluations -/

/-- The call reports a health of the instance: it is an accepted update, or it stores
the instance. -/
inductive Reports (r : Registry) (e : Event) (k : ServiceInstanceId) (h : Enum Health) : Prop
  | updated (env : AuthorityEnvelope) (old : ServiceInstance) (hop : e.op = .update_health k h env)
      (ha : r.Authorizes e.op old) (hold : r.instances[k]? = some old)
  | registered (inst : ServiceInstance) (hstored : r.Enrolls e inst) (hid : k = r.assignedId inst)
      (hhealth : inst.health = h)

/-- The call updates the instance or an endpoint that is bound to it, and classifies it
again. -/
inductive Evaluates (r : Registry) (op : Op) (k : ServiceInstanceId) : Prop
  | updated (write : ServiceInstance → ServiceInstance) (old : ServiceInstance) (hop : op.updates = some (k, write))
      (ha : r.Authorizes op old) (hold : r.instances[k]? = some old)
  | refreshed (hop : r.Refreshes op k)

/-- The worst ailment of the endpoints that the instance lists. -/
abbrev worstOf (r : Registry) (inst : ServiceInstance) : Ailment := worst inst r.endpoints

/-- A classification lets the endpoints weigh on the health that it finds. -/
theorem reclassify_health (r : Registry) (inst : ServiceInstance) : (r.reclassify_lifecycle inst).health =
    afflict inst.health (r.worstOf (r.reclassify_lifecycle inst)) := aggregate_health_eq inst r.endpoints

/-! ## What a call does to the health -/

theorem updates_stored {write : ServiceInstance → ServiceInstance} (hop : e.op.updates = some (k, write))
    (ha : r.Authorizes e.op old) (hold : r.instances[k]? = some old) (hs : Step r e t) :
    t.instances[k]? = some (t.reclassify_lifecycle (write old)) := by
  rw [hs.state]
  obtain ⟨env', henv', hacc, hgen⟩ := ha
  have hone : ∀ env stale, e.op.envelope = some env → (r.updateInstance k write stale env).2.instances[k]? =
      some ((r.updateInstance k write stale env).2.reclassify_lifecycle (write old)) := by
    intro env stale henv
    obtain rfl := Option.some.inj (henv'.symm.trans henv)
    apply updateInstance_rule (P := fun o => o.2.instances[k]? = some (o.2.reclassify_lifecycle (write old)))
    case rejected => exact fun _ hnot => absurd hacc hnot
    case unknown => exact fun _ hnone => nomatch hnone.symm.trans hold
    case superseded =>
      intro _ old' hold' hgen'
      obtain rfl := Option.some.inj (hold.symm.trans hold')
      cases hgen.symm.trans hgen'
    case updated =>
      intro _ old' hold' _
      obtain rfl := Option.some.inj (hold.symm.trans hold')
      refine Std.ExtTreeMap.getElem?_insert_self.trans (congrArg some ?_)
      exact (SameEvidence.reclassify ⟨rfl, rfl, rfl, rfl, rfl⟩ _).symm
  obtain ⟨op, scan, reply⟩ := e
  cases op <;> simp only [Op.updates, reduceCtorEq, Option.some.injEq, Prod.mk.injEq] at hop
  all_goals
    obtain ⟨rfl, rfl⟩ := hop
    simp only [exec, Outcome.map_snd]
    exact hone _ _ rfl

theorem register_instance_stored {scan : List ServiceInstanceId} {env : AuthorityEnvelope} (ha : r.Accepts env)
    (hadm : r.Admissible scan inst) : (r.register_instance scan inst env).2.instances[r.assignedId inst]? =
      some ((r.register_instance scan inst env).2.reclassify_lifecycle { inst with instance_id := r.assignedId inst }) := by
  rw [register_instance_admitted ha hadm, storeInstance_instances, if_pos rfl, (storeInstance_evidence _ _).reclassify]

/-- An enrolled instance is stored as it is classified. -/
theorem Enrolls.stored (h : r.Enrolls e inst) (hs : Step r e t) :
    t.instances[r.assignedId inst]? = some (t.reclassify_lifecycle { inst with instance_id := r.assignedId inst }) := by
  obtain ⟨hnew, hreply, hrepeat⟩ := h
  obtain ⟨hreg, env, henv, ha⟩ := registration_checked hs hnew hreply
  have hadm := hreg.resolve_left hrepeat
  have hreturns : (r.exec e.scan e.op).Returns := by
    rw [hs.2]
    exact hreply
  rw [hs.state]
  obtain ⟨op, scan, reply⟩ := e
  cases op <;> simp only [Op.newInstance, reduceCtorEq, Option.some.injEq] at hnew
  case register_instance inst' env' =>
    subst hnew
    cases henv
    exact register_instance_stored ha hadm
  case supersede old_id inst' env' =>
    subst hnew
    cases henv
    obtain ⟨_, old, hold, _⟩ := supersede_returns_iff.1 ((Outcome.map_returns _ _).1 hreturns)
    simp only [Op.checkedIn, hold] at hadm
    have hstored := register_instance_stored (r := r.markSuperseded old_id old) (show Accepts _ env from ha) hadm
    simp only [exec, Outcome.map_snd]
    rw [supersede_marked ha hold]
    exact hstored.trans (congrArg some (SameEvidence.reclassify ⟨rfl, rfl, rfl, rfl, rfl⟩ _).symm)

/-- An admissible registration enrolls the instance, unless it is refused before. -/
theorem admissible_enrolls (hs : Step r e t) (hnew : e.op.newInstance = some inst)
    (hadm : (e.op.checkedIn r).Admissible e.scan inst) : r.Enrolls e inst ∨ t = r := by
  obtain ⟨-, env, henv⟩ := newInstance_call hnew
  by_cases ha : r.Accepts env
  swap
  · obtain ⟨error, hrejected⟩ := exec_rejected henv ha e.scan
    exact .inr (congrArg Prod.snd (hs.2.symm.trans hrejected))
  have hrepeat : ¬ (e.op.checkedIn r).Repeats e.scan inst := fun h => h.not_admissible hadm
  have hreturns : (r.exec e.scan e.op).Returns → r.Enrolls e inst := by
    intro h
    rw [hs.2] at h
    exact ⟨hnew, h, hrepeat⟩
  have hstate := hs.state
  obtain ⟨op, scan, reply⟩ := e
  cases op <;> simp only [Op.newInstance, reduceCtorEq, Option.some.injEq] at hnew
  case register_instance inst' env' =>
    subst hnew
    cases henv
    exact .inl (hreturns ((Outcome.map_returns _ _).2 (register_instance_returns_iff.2 ⟨ha, .inr hadm⟩)))
  case supersede old_id inst' env' =>
    subst hnew
    cases henv
    rcases hold : r.instances[old_id]? with _ | old
    · right
      rw [hstate]
      simp only [exec, Outcome.map_snd, supersede, authorized_accepted ha, hold]
    · simp only [Op.checkedIn, hold] at hadm
      exact .inl (hreturns ((Outcome.map_returns _ _).2 (supersede_returns_iff.2 ⟨ha, old, hold, .inr hadm⟩)))

theorem Reports.stored {h : Enum Health} (hrep : r.Reports e k h) (hs : Step r e t) :
    ∃ inst, inst.health = h ∧ t.instances[k]? = some (t.reclassify_lifecycle inst) := by
  cases hrep with
  | updated env old hop ha hold =>
    have hup : e.op.updates = some (k, fun inst => { inst with health := h }) := by rw [hop]; rfl
    exact ⟨{ old with health := h }, rfl, updates_stored hup ha hold hs⟩
  | registered inst hstored hid hhealth =>
    subst hid
    exact ⟨{ inst with instance_id := r.assignedId inst }, hhealth, hstored.stored hs⟩

theorem Evaluates.stored (heval : r.Evaluates e.op k) (hquiet : ∀ h, ¬ r.Reports e k h)
    (hold : r.instances[k]? = some old) (hs : Step r e t) :
    ∃ inst, inst.health = old.health ∧ t.instances[k]? = some (t.reclassify_lifecycle inst) := by
  cases heval with
  | updated write old' hop ha hold' =>
    obtain rfl := Option.some.inj (hold.symm.trans hold')
    refine ⟨write old, ?_, updates_stored hop ha hold hs⟩
    -- of the four updates only the report writes the health
    obtain ⟨op, scan, reply⟩ := e
    cases op <;> simp only [Op.updates, reduceCtorEq, Option.some.injEq, Prod.mk.injEq] at hop
    case update_health id h env =>
      obtain ⟨rfl, rfl⟩ := hop
      exact absurd (.updated env old rfl ha hold) (hquiet h)
    all_goals
      obtain ⟨rfl, rfl⟩ := hop
      rfl
  | refreshed hop =>
    refine ⟨old, rfl, ?_⟩
    rw [hs.state]
    exact update_reachability_owner e.scan hop hold

@[simp] theorem revalidateInstance_health (inst : ServiceInstance) : (revalidateInstance inst).health = inst.health := by
  unfold revalidateInstance
  dsimp only
  split_ifs <;> rfl

/-- A record that a registration has classified under its key was enrolled, or was there before. -/
theorem classified_enrolls (hs : Step r e t) (hnew : e.op.newInstance = some inst)
    (h : t.instances[k]? = some (t.reclassify_lifecycle { inst with instance_id := k })) :
    r.Enrolls e inst ∧ k = r.assignedId inst ∨ t.instances[k]? = r.instances[k]? := by
  have henters : Enters r (e.op.checkedIn r) e.scan inst (r.exec e.scan e.op).2 k := exec_enters hnew k
  rw [← hs.state] at henters
  cases henters with
  | kept hkept => exact .inr hkept
  | superseded old h' =>
    -- a classified instance is not superseded
    have hlifecycle := congrArg (fun x => historical x.lifecycle) (Option.some.inj (h.symm.trans h'))
    dsimp only at hlifecycle
    rw [historical_reclassify] at hlifecycle
    cases hlifecycle
  | stored hid hadm _ =>
    rcases admissible_enrolls hs hnew hadm with henrolls | rfl
    · exact .inl ⟨henrolls, hid⟩
    · exact .inr rfl

/-- Any other call but `load_from` leaves the health alone. -/
theorem health_kept (himage : e.op.class ≠ .image) (hquiet : ∀ h, ¬ r.Reports e k h) (hidle : ¬ r.Evaluates e.op k)
    (hold : r.instances[k]? = some old) (hs : Step r e t) :
    ∃ inst, t.instances[k]? = some inst ∧ inst.health = old.health := by
  have hchange := r.exec_change e.scan e.op himage k
  rw [← hs.state] at hchange
  cases hchange with
  | kept h => exact ⟨old, h.trans hold, rfl⟩
  | updated write old' hop ha hold' => exact absurd (.updated write old' hop ha hold') hidle
  | refreshed _ hop => exact absurd (.refreshed hop) hidle
  | stored inst hop hid _ h =>
    rcases classified_enrolls hs hop h with ⟨henrolls, _⟩ | hkept
    · exact absurd (.registered inst henrolls hid rfl) (hquiet inst.health)
    · exact ⟨old, hkept.trans hold, rfl⟩
  | superseded old' hold' _ h =>
    obtain rfl := Option.some.inj (hold.symm.trans hold')
    exact ⟨_, h, rfl⟩
  | retired _ old' _ _ hold' h =>
    obtain rfl := Option.some.inj (hold.symm.trans hold')
    exact ⟨_, h, rfl⟩
  | dead old' _ _ hold' h =>
    obtain rfl := Option.some.inj (hold.symm.trans hold')
    exact ⟨_, h, rfl⟩
  | revalidated old' _ hold' h =>
    obtain rfl := Option.some.inj (hold.symm.trans hold')
    exact ⟨_, h, revalidateInstance_health old⟩

/-! ## Runs since the last report -/

/-- A run since `h` was reported last: `base` is the health that the report, or an
image since, has stored, and `seen` the worst ailments at the evaluations since. -/
inductive SinceReport (k : ServiceInstanceId) (h : Enum Health) : Enum Health → List Ailment → Registry → Prop
  | reported {r t : Registry} {e : Event} {inst : ServiceInstance} (hr : r.Reachable) (hs : Step r e t)
      (hrep : r.Reports e k h) (hi : t.instances[k]? = some inst) : SinceReport k h h [t.worstOf inst] t
  | evaluated {r t : Registry} {e : Event} {base : Enum Health} {seen : List Ailment} {inst : ServiceInstance}
      (hr : SinceReport k h base seen r) (hs : Step r e t) (hquiet : ∀ h', ¬ r.Reports e k h')
      (heval : r.Evaluates e.op k) (hi : t.instances[k]? = some inst) : SinceReport k h base (t.worstOf inst :: seen) t
  | kept {r t : Registry} {e : Event} {base : Enum Health} {seen : List Ailment} (hr : SinceReport k h base seen r)
      (hs : Step r e t) (himage : e.op.class ≠ .image) (hquiet : ∀ h', ¬ r.Reports e k h')
      (hidle : ¬ r.Evaluates e.op k) : SinceReport k h base seen t
  | loaded {r t : Registry} {e : Event} {base : Enum Health} {seen : List Ailment} {inst : ServiceInstance}
      (hr : SinceReport k h base seen r) (hs : Step r e t) (himage : e.op.class = .image)
      (hi : t.instances[k]? = some inst) : SinceReport k h inst.health [] t

/-- The last call of the run evaluates the instance, and leaves `inst`. -/
inductive EndsEvaluated (k : ServiceInstanceId) (h : Enum Health) :
    Enum Health → List Ailment → ServiceInstance → Registry → Prop
  | reported {r t : Registry} {e : Event} {inst : ServiceInstance} (hr : r.Reachable) (hs : Step r e t)
      (hrep : r.Reports e k h) (hi : t.instances[k]? = some inst) : EndsEvaluated k h h [] inst t
  | evaluated {r t : Registry} {e : Event} {base : Enum Health} {seen : List Ailment} {inst : ServiceInstance}
      (hr : SinceReport k h base seen r) (hs : Step r e t) (hquiet : ∀ h', ¬ r.Reports e k h')
      (heval : r.Evaluates e.op k) (hi : t.instances[k]? = some inst) : EndsEvaluated k h base seen inst t

theorem classified_health {h : Enum Health} (hstored : ∃ x, x.health = h ∧ t.instances[k]? = some (t.reclassify_lifecycle x))
    (hi : t.instances[k]? = some inst) : inst.health = afflict h (t.worstOf inst) := by
  obtain ⟨x, hx, hstored⟩ := hstored
  obtain rfl := Option.some.inj (hstored.symm.trans hi)
  rw [← hx]
  exact reclassify_health t x

/-- The stored health is the base under all the ailments seen. -/
theorem SinceReport.health {h base : Enum Health} {seen : List Ailment} (hr : SinceReport k h base seen t) :
    ∃ inst, t.instances[k]? = some inst ∧ inst.health = afflict base (heaviest (fun a => a) seen) := by
  induction hr with
  | reported _ hs hrep hi =>
    refine ⟨_, hi, (classified_health (hrep.stored hs) hi).trans ?_⟩
    rw [heaviest_cons, heaviest_nil, sup_bot_eq]
  | evaluated _ hs hquiet heval hi ih =>
    obtain ⟨old, hold, hhealth⟩ := ih
    refine ⟨_, hi, (classified_health (heval.stored hquiet hold hs) hi).trans ?_⟩
    rw [hhealth, afflict_joins.sup, heaviest_cons, sup_comm]
  | kept _ hs himage hquiet hidle ih =>
    obtain ⟨old, hold, hhealth⟩ := ih
    obtain ⟨inst, hi, hkept⟩ := health_kept himage hquiet hidle hold hs
    exact ⟨inst, hi, hkept.trans hhealth⟩
  | loaded _ _ _ hi => exact ⟨_, hi, rfl⟩

theorem EndsEvaluated.health {h base : Enum Health} {seen : List Ailment} (hr : EndsEvaluated k h base seen inst t) :
    inst.health = afflict base (t.worstOf inst ⊔ heaviest (fun a => a) seen) := by
  cases hr with
  | reported _ hs hrep hi =>
    rw [heaviest_nil, sup_bot_eq]
    exact classified_health (hrep.stored hs) hi
  | evaluated hr hs hquiet heval hi =>
    obtain ⟨old, hold, hhealth⟩ := hr.health
    rw [classified_health (heval.stored hquiet hold hs) hi, hhealth, afflict_joins.sup, sup_comm]

/-! ## What the health forgets -/

/-- The stored records of the endpoints that the instance lists. -/
def listed (r : Registry) (inst : ServiceInstance) : List EndpointDescriptor :=
  inst.endpoints.filterMap fun eid => r.endpoints[eid]?

theorem worstOf_le {a : Ailment} : r.worstOf inst ≤ a ↔ ∀ ep ∈ r.listed inst, Ailment.ofHealth ep.health ≤ a := by
  rw [worstOf, worst, heaviest_le]
  constructor
  · intro h ep hep
    obtain ⟨eid, hmem, hstored⟩ := List.mem_filterMap.1 hep
    simpa only [ailment, hstored] using h eid hmem
  · intro h eid hmem
    unfold ailment
    rcases hstored : r.endpoints[eid]? with _ | ep
    · exact bot_le
    · exact h ep (List.mem_filterMap.2 ⟨eid, hmem, hstored⟩)

theorem worstOf_congr {inst' : ServiceInstance} (h : ∀ ep, ep ∈ r.listed inst ↔ ep ∈ t.listed inst') :
    r.worstOf inst = t.worstOf inst' :=
  le_antisymm (worstOf_le.2 fun ep hep => worstOf_le.1 le_rfl ep ((h ep).1 hep))
    (worstOf_le.2 fun ep hep => worstOf_le.1 le_rfl ep ((h ep).2 hep))

/-- The reported health and the ailment that the endpoints have now account for what
was stored and seen on the way. -/
structure AccountsFor (h : Enum Health) (now : Ailment) (base : Enum Health) (seen : List Ailment) : Prop where
  base : afflict base now = afflict h now
  seen : ∀ a ∈ seen, a ≤ Ailment.own h ⊔ now

theorem EndsEvaluated.forgets {h base : Enum Health} {seen : List Ailment} (hr : EndsEvaluated k h base seen inst t)
    (ha : AccountsFor h (t.worstOf inst) base seen) : inst.health = afflict h (t.worstOf inst) := by
  rw [hr.health, ← afflict_joins.sup, ha.base, afflict_joins.sup, Ailment.afflict_sup_iff]
  exact heaviest_le.2 ha.seen

/-- Without an image since the report, the health is the one that a run without the
evaluations in between ends with if and only if what they saw is accounted for. -/
theorem EndsEvaluated.forgets_iff {h : Enum Health} {seen : List Ailment} (hr : EndsEvaluated k h h seen inst t) :
    inst.health = afflict h (t.worstOf inst) ↔ ∀ a ∈ seen, a ≤ Ailment.own h ⊔ t.worstOf inst := by
  rw [hr.health, Ailment.afflict_sup_iff]
  exact heaviest_le

/-- Two runs that end by evaluating the instance, with the same health reported last and
the same endpoints now, leave it with the same health, if these account for what was
seen on the way. -/
theorem health_forgets {h base₁ base₂ : Enum Health} {seen₁ seen₂ : List Ailment} {inst₁ inst₂ : ServiceInstance}
    {t₁ t₂ : Registry} (h₁ : EndsEvaluated k h base₁ seen₁ inst₁ t₁) (h₂ : EndsEvaluated k h base₂ seen₂ inst₂ t₂)
    (hsame : ∀ ep, ep ∈ t₁.listed inst₁ ↔ ep ∈ t₂.listed inst₂) (ha₁ : AccountsFor h (t₁.worstOf inst₁) base₁ seen₁)
    (ha₂ : AccountsFor h (t₂.worstOf inst₂) base₂ seen₂) : inst₁.health = inst₂.health := by
  rw [h₁.forgets ha₁, h₂.forgets ha₂, worstOf_congr hsame]

end Registry

/-! ## An endpoint that healed -/

/-- An endpoint of the health. -/
def Sample.ailing (g : Health) : Registry := Registry.fresh.after [
  .adopt_worker ⟨1⟩, .register_service Sample.service Sample.env,
  .register_endpoint { Sample.endpoint with health := g } Sample.env]

/-- An instance that lists it is registered. -/
def Sample.ailed (g : Health) : Registry := (Sample.ailing g).after [.register_instance Sample.listing Sample.env]

def Sample.recovery : Op :=
  .register_endpoint { Sample.endpoint with generation := ⟨2⟩, health := Health.HEALTHY } Sample.env

/-- The endpoint is healthy again, and the instance is evaluated. -/
def Sample.healed (g : Health) : Registry :=
  ((Sample.ailed g).after [Sample.recovery]).after [.update_readiness ⟨5⟩ Readiness.READY Sample.env]

namespace Registry

/-- The healthy instance has seen the endpoint as it was. -/
theorem ailed_since (g : Health) :
    SinceReport ⟨5⟩ Health.HEALTHY Health.HEALTHY [Ailment.ofHealth g] ((Sample.ailed g).after [Sample.recovery]) := by
  have hstored : ∃ inst, (Sample.ailed g).instances[(⟨5⟩ : ServiceInstanceId)]? = some inst ∧
      (Sample.ailed g).worstOf inst = Ailment.ofHealth g := by
    have h : ∃ inst ∈ (Sample.ailed g).instances[(⟨5⟩ : ServiceInstanceId)]?,
        (Sample.ailed g).worstOf inst = Ailment.ofHealth g := by cases g <;> decide +kernel
    exact h
  obtain ⟨inst, hi, hworst⟩ := hstored
  have hreply : ∃ reply, ((Sample.ailing g).call (.register_instance Sample.listing Sample.env)).reply = .ok reply := by
    cases g <;> exact ⟨_, rfl⟩
  have hfirst : (Sample.ailing g).currentInstance (Sample.ailing g).instances.keys ⟨3⟩ = none := by
    cases g <;> decide +kernel
  have hreports : (Sample.ailing g).Reports ((Sample.ailing g).call (.register_instance Sample.listing Sample.env)) ⟨5⟩
      Health.HEALTHY := by
    refine .registered Sample.listing ⟨rfl, hreply, ?_⟩ rfl rfl
    rintro ⟨_, id, current, hc, _⟩
    cases hfirst.symm.trans hc
  rw [← hworst]
  refine .kept (.reported (Reachable.after (.refl _) _) (step_call _ _) hreports hi) (step_call _ _) nofun ?_ ?_
  · rintro h (⟨_, _, hop⟩ | ⟨_, hstored⟩)
    · cases hop
    · cases hstored.1
  · rintro (⟨_, _, hop⟩ | ⟨_, _, _, _, hop, _⟩)
    · cases hop
    · cases hop

/-- It is evaluated when the endpoint is healthy. -/
theorem healed_ends (g : Health) : ∃ inst, (Sample.healed g).instances[(⟨5⟩ : ServiceInstanceId)]? = some inst ∧
    EndsEvaluated ⟨5⟩ Health.HEALTHY Health.HEALTHY [Ailment.ofHealth g] inst (Sample.healed g) := by
  have hbefore : ∃ old ∈ ((Sample.ailed g).after [Sample.recovery]).instances[(⟨5⟩ : ServiceInstanceId)]?,
      generation_is_current_generation Sample.env old = true := by cases g <;> decide +kernel
  have hafter : ∃ inst, (Sample.healed g).instances[(⟨5⟩ : ServiceInstanceId)]? = some inst :=
    Option.isSome_iff_exists.1 (by cases g <;> decide +kernel)
  have ha : ((Sample.ailed g).after [Sample.recovery]).Accepts Sample.env := by cases g <;> decide +kernel
  obtain ⟨old, hold, hgen⟩ := hbefore
  obtain ⟨inst, hi⟩ := hafter
  refine ⟨inst, hi, .evaluated (ailed_since g) (step_call _ _) ?_ (.updated _ old rfl ⟨Sample.env, rfl, ha, hgen⟩ hold) hi⟩
  rintro h (⟨_, _, hop⟩ | ⟨_, hstored⟩)
  · cases hop
  · cases hstored.1

/-- Whatever it was, the endpoint is the same at the end. -/
theorem healed_listed (g : Health) : ∀ inst ∈ (Sample.healed g).instances[(⟨5⟩ : ServiceInstanceId)]?,
    (Sample.healed g).listed inst =
      [{ Sample.endpoint with generation := ⟨2⟩, health := Health.HEALTHY }] := by
  cases g <;> decide +kernel

/-- Two runs in which the endpoint has never been ailing leave the instance with the
same health. -/
theorem health_forgets_sample : ∃ inst₁ inst₂,
    (Sample.healed .HEALTHY).instances[(⟨5⟩ : ServiceInstanceId)]? = some inst₁ ∧
      (Sample.healed .UNKNOWN).instances[(⟨5⟩ : ServiceInstanceId)]? = some inst₂ ∧ inst₁.health = inst₂.health := by
  obtain ⟨inst₁, hi₁, h₁⟩ := healed_ends .HEALTHY
  obtain ⟨inst₂, hi₂, h₂⟩ := healed_ends .UNKNOWN
  have hseen : ∀ now, ∀ a ∈ [Ailment.none], a ≤ Ailment.own Health.HEALTHY ⊔ now := by
    intro now a ha
    rw [List.mem_singleton.1 ha]
    exact bot_le
  refine ⟨inst₁, inst₂, hi₁, hi₂, health_forgets h₁ h₂ ?_ ⟨rfl, hseen _⟩ ⟨rfl, hseen _⟩⟩
  intro ep
  rw [healed_listed _ inst₁ hi₁, healed_listed _ inst₂ hi₂]

/-- A degraded endpoint that healed leaves the instance degraded. -/
theorem health_remembers : ∃ inst₁ inst₂,
    EndsEvaluated ⟨5⟩ Health.HEALTHY Health.HEALTHY [Ailment.none] inst₁ (Sample.healed .HEALTHY) ∧
      EndsEvaluated ⟨5⟩ Health.HEALTHY Health.HEALTHY [Ailment.degraded] inst₂ (Sample.healed .DEGRADED) ∧
      (Sample.healed .HEALTHY).listed inst₁ = (Sample.healed .DEGRADED).listed inst₂ ∧ inst₁.health ≠ inst₂.health := by
  obtain ⟨inst₁, hi₁, h₁⟩ := healed_ends .HEALTHY
  obtain ⟨inst₂, hi₂, h₂⟩ := healed_ends .DEGRADED
  have hhealthy : ∀ inst ∈ (Sample.healed .HEALTHY).instances[(⟨5⟩ : ServiceInstanceId)]?,
      inst.health = Health.HEALTHY := by decide +kernel
  have hdegraded : ∀ inst ∈ (Sample.healed .DEGRADED).instances[(⟨5⟩ : ServiceInstanceId)]?,
      inst.health = Health.DEGRADED := by decide +kernel
  refine ⟨inst₁, inst₂, h₁, h₂, (healed_listed _ inst₁ hi₁).trans (healed_listed _ inst₂ hi₂).symm, ?_⟩
  rw [hhealthy inst₁ hi₁, hdegraded inst₂ hi₂]
  decide

end Registry

end RuntimeRegistry
