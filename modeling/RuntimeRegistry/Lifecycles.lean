import RuntimeRegistry.Endpoints
/-!
# The end of an incarnation

A superseded or retired record is meant to stay what it is, and a service to have
one current instance. The updates, the refresh of an endpoint's owner and the
death of a boot write the lifecycle of a record without a look at the old one, so
both hold in the runs that leave such records to themselves.
-/
open Lib

namespace RuntimeRegistry

/-! An instance that a newer generation supersedes, and its next health report. -/
namespace Sample

def replaced : Registry := registry.after [.register_instance (incarnation 6 2) env]

def revived : Registry := replaced.after [.update_health ⟨5⟩ Health.HEALTHY env]

end Sample

namespace Registry

variable {r s t : Registry} {op : Op} {env : AuthorityEnvelope} {scan : List ServiceInstanceId}
  {k : ServiceInstanceId} {inst old : ServiceInstance}

/-- The call classifies the record again or marks it as dead. -/
def Touches (r : Registry) (op : Op) (k : ServiceInstanceId) (old : ServiceInstance) : Prop :=
  (∃ write, op.updates = some (k, write)) ∧ r.Authorizes op old ∨ r.Refreshes op k ∨
    op.Kills r old.boot ∧ r.authority.is_boot_live old.boot = true

/-! ## Records that are over -/

/-- The lifecycle that a supersession or a deregistration leaves. -/
def Settled (l : Enum Lifecycle) : Prop := l = Lifecycle.SUPERSEDED ∨ l = Lifecycle.RETIRED

theorem Settled.historical {l : Enum Lifecycle} (h : Settled l) : historical l = true := by
  rcases h with rfl | rfl <;> rfl

/-- The call takes the record out of its lifecycle: it touches it, supersedes it
after it was retired, or retires it after it was superseded. -/
def Unsettles (r : Registry) (op : Op) (k : ServiceInstanceId) (old : ServiceInstance) : Prop :=
  r.Touches op k old ∨
    old.lifecycle = Lifecycle.RETIRED ∧ (∃ inst env, op = .supersede k inst env ∧ r.Accepts env) ∨
    old.lifecycle = Lifecycle.SUPERSEDED ∧ (∃ env, op = .deregister k env) ∧ r.Authorizes op old

/-- The call registers an instance, which is stored under the key. -/
def Stores (r : Registry) (e : Event) (k : ServiceInstanceId) : Prop :=
  (∃ inst, e.op.newInstance = some inst ∧ r.assignedId inst = k) ∧ ∃ reply, e.reply = .ok reply

/-- A registration that throws leaves the records that are over. -/
theorem register_instance_error {e : RegistryError} (h : (r.register_instance scan inst env).1 = .error e)
    (hi : r.instances[k]? = some old) (hh : historical old.lifecycle = true) :
    (r.register_instance scan inst env).2.instances[k]? = some old := by
  revert h
  refine register_instance_rule (P := fun o => o.1 = .error e → o.2.instances[k]? = some old) ?rejected ?unregistered
    ?repeated ?stale ?superseded ?fenced ?first
  case rejected => exact fun _ _ _ => hi
  case unregistered => exact fun _ _ _ _ => hi
  case repeated => exact fun _ _ _ _ _ _ _ _ => hi
  case stale => exact fun _ _ _ _ _ _ _ _ _ => hi
  case fenced => exact fun _ _ _ _ _ _ => hi
  case first =>
    intro _ _ _ _
    refine bindInstance_rule (P := fun o => o.1 = .error e → o.2.instances[k]? = some old) ?_ fun _ _ h => nomatch h
    intro e' t ht _
    have hkept := claimEndpoints_instances (r.assignedId inst) inst.endpoints { r with next_id := r.assignedNext inst }
    rw [ht] at hkept
    rwa [hkept]
  case superseded =>
    intro _ _ id current hc _
    refine bindInstance_rule (P := fun o => o.1 = .error e → o.2.instances[k]? = some old) ?_ fun _ _ h => nomatch h
    intro e' t ht _
    have hkept := claimEndpoints_instances (r.assignedId inst) inst.endpoints
      ({ r with next_id := r.assignedNext inst }.supersedeCurrent id current)
    rw [ht] at hkept
    rw [hkept]
    -- the superseded instance is the current one, which is not over
    rcases getElem?_insert_cases r.instances id k { current with lifecycle := Lifecycle.SUPERSEDED } with ⟨rfl, _⟩ | ⟨_, hk⟩
    · have hcurrent := currentInstance_some hc
      obtain rfl : old = current := Option.some.inj (hi.symm.trans hcurrent.1)
      rw [hcurrent.2.2] at hh
      cases hh
    · exact hk.trans hi

/-- The same of `supersede`, but for the record it names, which it marks first. -/
theorem supersede_error {e : RegistryError} {old_id : ServiceInstanceId}
    (h : (r.supersede scan old_id inst env).1 = .error e) (hi : r.instances[k]? = some old)
    (hh : historical old.lifecycle = true) :
    (r.supersede scan old_id inst env).2.instances[k]? = some old ∨
      k = old_id ∧ r.Accepts env ∧ (r.supersede scan old_id inst env).2.instances[k]? =
        some { old with lifecycle := Lifecycle.SUPERSEDED } := by
  revert h
  refine supersede_rule (P := fun o => o.1 = .error e → o.2.instances[k]? = some old ∨ k = old_id ∧ r.Accepts env ∧
    o.2.instances[k]? = some { old with lifecycle := Lifecycle.SUPERSEDED }) ?_ ?_ ?_ ?_
  · exact fun _ _ _ => .inl hi
  · exact fun _ _ _ _ => .inl hi
  · intro ha old' hold' e' t ht _
    have herror : ((r.markSuperseded old_id old').register_instance scan inst env).1 = .error e' := by rw [ht]
    rcases getElem?_insert_cases r.instances old_id k { old' with lifecycle := Lifecycle.SUPERSEDED } with ⟨rfl, hk⟩ | ⟨_, hk⟩
    · obtain rfl : old = old' := Option.some.inj (hi.symm.trans hold')
      have hkept := register_instance_error herror hk rfl
      rw [ht] at hkept
      exact .inr ⟨rfl, ha, hkept⟩
    · have hkept := register_instance_error herror (hk.trans hi) hh
      rw [ht] at hkept
      exact .inl hkept
  · exact fun _ _ _ _ _ _ h => nomatch h

/-- A registration that throws leaves a record that is over, or marks it first. -/
theorem registration_error {e : RegistryError} (hnew : op.newInstance = some inst)
    (h : (r.exec scan op).1 = .error e) (hi : r.instances[k]? = some old) (hh : historical old.lifecycle = true) :
    (r.exec scan op).2.instances[k]? = some old ∨ (∃ inst env, op = .supersede k inst env ∧ r.Accepts env) ∧
      (r.exec scan op).2.instances[k]? = some { old with lifecycle := Lifecycle.SUPERSEDED } := by
  cases op <;> simp only [Op.newInstance, reduceCtorEq, Option.some.injEq] at hnew
  case register_instance inst' env => exact .inl (register_instance_error ((Outcome.map_fst_error _ _ _).1 h) hi hh)
  case supersede old_id inst' env =>
    rcases supersede_error ((Outcome.map_fst_error _ _ _).1 h) hi hh with hk | ⟨rfl, ha, hk⟩
    · exact .inl hk
    · exact .inr ⟨⟨inst', env, rfl, ha⟩, hk⟩

/-- A call that does not store another record under the key, nor takes the record
out of its lifecycle, leaves it there. -/
theorem settled_step {e : Event} (hs : Step r e t) (hload : e.noLoad) (hi : r.instances[k]? = some old)
    (hl : Settled old.lifecycle) (hstores : ¬ r.Stores e k) (hleaves : ¬ r.Unsettles e.op k old) :
    ∃ inst, t.instances[k]? = some inst ∧ inst.lifecycle = old.lifecycle := by
  have hchange := r.exec_change e.scan e.op hload.class_ne k
  rw [← hs.state] at hchange
  -- a settled record can only be marked as superseded again
  have hmarked : (∃ inst env, e.op = .supersede k inst env ∧ r.Accepts env) → old.lifecycle = Lifecycle.SUPERSEDED :=
    fun hop => hl.resolve_right fun hl => hleaves (.inr (.inl ⟨hl, hop⟩))
  cases hchange with
  | kept h => exact ⟨old, h.trans hi, rfl⟩
  | updated write old' hop ha hold _ =>
    obtain rfl : old = old' := Option.some.inj (hi.symm.trans hold)
    exact absurd (.inl (.inl ⟨⟨write, hop⟩, ha⟩)) hleaves
  | refreshed old' hop _ _ => exact absurd (.inl (.inr (.inl hop))) hleaves
  | dead old' hkill hlive hold _ =>
    obtain rfl : old = old' := Option.some.inj (hi.symm.trans hold)
    exact absurd (.inl (.inr (.inr ⟨hkill, hlive⟩))) hleaves
  | superseded old' hold hwhy h =>
    obtain rfl : old = old' := Option.some.inj (hi.symm.trans hold)
    refine ⟨_, h, ?_⟩
    rcases hwhy with ⟨_, _, hcurrent, _⟩ | ⟨inst, env, hop, ha⟩
    · exact absurd (hl.historical.symm.trans hcurrent.2.2) (by decide)
    · exact (hmarked ⟨inst, env, hop, ha⟩).symm
  | retired env old' hop ha hold h =>
    obtain rfl : old = old' := Option.some.inj (hi.symm.trans hold)
    refine ⟨_, h, (hl.resolve_left fun hl => ?_).symm⟩
    exact hleaves (.inr (.inr ⟨hl, ⟨env, hop⟩, ha⟩))
  | revalidated old' _ hold h =>
    obtain rfl : old = old' := Option.some.inj (hi.symm.trans hold)
    refine ⟨_, h, ?_⟩
    rcases hl with hl | hl <;> simp [revalidateInstance, hl]
  | stored inst hop hid _ _ =>
    -- a call that returns has stored the instance, one that throws has not
    rcases hreply : e.reply with err | reply
    · have hthrown : (r.exec e.scan e.op).1 = .error err := by rw [hs.2, hreply]
      rw [hs.state]
      rcases registration_error hop hthrown hi hl.historical with hk | ⟨hsup, hk⟩
      · exact ⟨old, hk, rfl⟩
      · exact ⟨_, hk, (hmarked hsup).symm⟩
    · exact absurd ⟨⟨inst, hop, hid.symm⟩, reply, hreply⟩ hstores

/-- The record stays in its lifecycle, and no query for current instances ranks it. -/
structure StaysSettled (r : Registry) (k : ServiceInstanceId) (l : Enum Lifecycle) : Prop where
  lifecycle : ∃ inst, r.instances[k]? = some inst ∧ inst.lifecycle = l
  unranked : ∀ scan q, scan.Perm r.instances.keys → q.current_only = true → k ∉ (r.query scan q).rankedIds

theorem staysSettled_of_lifecycle (h : r.Reachable) (hi : r.instances[k]? = some inst) (hl : Settled inst.lifecycle) :
    r.StaysSettled k inst.lifecycle where
  lifecycle := ⟨inst, hi, rfl⟩
  unranked scan q hscan hq hranked := by
    have hall := (forall_ranked h hscan (q := q) fun inst => ¬ Settled inst.lifecycle).2 fun id inst svc _ he _ hs =>
      hs.elim (he.current hq).1 (he.current hq).2
    obtain ⟨inst', hi', hnot⟩ := hall k hranked
    obtain rfl : inst = inst' := Option.some.inj (hi.symm.trans hi')
    exact hnot hl

/-- In every run without `load_from` that stores no other record under its key and
does not take it out of its lifecycle, a superseded or retired record stays what it
is, and is not ranked as current. -/
theorem settled_stays (hs : s.ReachableWithoutLoad) (hi : s.instances[k]? = some old) (hl : Settled old.lifecycle)
    {es : List Event} (hr : Run (Guarded Step fun r e => e.noLoad ∧ ¬ r.Stores e k ∧
      ∀ old, r.instances[k]? = some old → ¬ r.Unsettles e.op k old) s es t) : t.StaysSettled k old.lifecycle := by
  have hreach : t.Reachable := hs.reachable.run hr.unguarded
  have hinv : ∃ inst, t.instances[k]? = some inst ∧ inst.lifecycle = old.lifecycle := by
    refine hr.inv (fun r => ∃ inst, r.instances[k]? = some inst ∧ inst.lifecycle = old.lifecycle) ?_ ⟨old, hi, rfl⟩
    rintro u e v ⟨inst, hu, hlu⟩ ⟨hstep, hload, hstores, hleaves⟩
    obtain ⟨inst', hv, hlv⟩ := settled_step hstep hload hu (hlu ▸ hl) hstores (hleaves inst hu)
    exact ⟨inst', hv, hlv.trans hlu⟩
  obtain ⟨inst, hinst, hlife⟩ := hinv
  rw [← hlife]
  exact staysSettled_of_lifecycle hreach hinst (hlife ▸ hl)

theorem replaced_superseded : ∃ inst, Sample.replaced.instances[(⟨5⟩ : ServiceInstanceId)]? = some inst ∧
    inst.lifecycle = Lifecycle.SUPERSEDED := by
  have h : ∃ inst ∈ Sample.replaced.instances[(⟨5⟩ : ServiceInstanceId)]?, inst.lifecycle = Lifecycle.SUPERSEDED := by
    decide +kernel
  exact h

theorem replaced_reachable : Sample.replaced.ReachableWithoutLoad :=
  Sample.registry_reachable.after (by simp)

/-- A report on the new instance leaves the superseded one alone. -/
theorem settled_stays_report :
    (Sample.replaced.after [.update_health ⟨6⟩ Health.DEGRADED Sample.env]).StaysSettled ⟨5⟩ Lifecycle.SUPERSEDED := by
  obtain ⟨old, hi, hl⟩ := replaced_superseded
  have hleaves : ∀ r : Registry, ∀ old, r.instances[(⟨5⟩ : ServiceInstanceId)]? = some old →
      ¬ r.Unsettles (.update_health ⟨6⟩ Health.DEGRADED Sample.env) ⟨5⟩ old := by
    rintro r old _ ((⟨⟨_, h⟩, _⟩ | ⟨_, _, _, _, h, _⟩ | ⟨h, _⟩) | ⟨_, _, _, h, _⟩ | ⟨_, ⟨_, h⟩, _⟩)
    · simp [Op.updates] at h
    · cases h
    · exact h
    · cases h
    · cases h
  have hstores : ∀ (r : Registry) reply, ¬ r.Stores ⟨.update_health ⟨6⟩ Health.DEGRADED Sample.env,
      Sample.replaced.instances.keys, reply⟩ ⟨5⟩ := by
    rintro r reply ⟨⟨_, h, _⟩, _⟩
    cases h
  rw [← hl]
  exact settled_stays replaced_reachable hi (.inl hl)
    (.single ⟨⟨.refl _, rfl⟩, fun _ h => (by cases h), hstores _ _, hleaves _⟩)

/-- A health report on a superseded instance makes it available and current again. -/
theorem superseded_revived : Sample.replaced.ReachableWithoutLoad ∧
    (∃ inst, Sample.replaced.instances[(⟨5⟩ : ServiceInstanceId)]? = some inst ∧
      inst.lifecycle = Lifecycle.SUPERSEDED) ∧
    (∃ inst, Sample.revived.instances[(⟨5⟩ : ServiceInstanceId)]? = some inst ∧ inst.lifecycle = Lifecycle.AVAILABLE) ∧
    ⟨5⟩ ∈ (Sample.revived.query Sample.revived.instances.keys { current_only := true }).rankedIds := by
  have havailable : ∃ inst ∈ Sample.revived.instances[(⟨5⟩ : ServiceInstanceId)]?,
      inst.lifecycle = Lifecycle.AVAILABLE := by decide +kernel
  exact ⟨replaced_reachable, replaced_superseded, havailable, by decide +kernel⟩

/-! ## One current instance -/

/-- No service has two instances that are not over. -/
def Solitary (r : Registry) : Prop :=
  ∀ (k k' : ServiceInstanceId) (old old' : ServiceInstance), r.instances[k]? = some old → r.instances[k']? = some old' →
    old.service_id = old'.service_id → historical old.lifecycle = false → historical old'.lifecycle = false → k = k'

/-- No service has two instances that are not over or that the call touches. -/
def TouchesOne (r : Registry) (op : Op) : Prop :=
  ∀ (k k' : ServiceInstanceId) (old old' : ServiceInstance), r.instances[k]? = some old → r.instances[k']? = some old' →
    old.service_id = old'.service_id → historical old.lifecycle = false ∨ r.Touches op k old →
    historical old'.lifecycle = false ∨ r.Touches op k' old' → k = k'

theorem Solitary.empty (h : r.instances = ∅) : r.Solitary := by
  intro k k' old old' hk
  simp [h] at hk

/-- Binding an instance keeps its service to one, if the others of it are over. -/
theorem Solitary.bindInstance (h : r.Solitary) {copy : ServiceInstance}
    (hfree : ∀ (k : ServiceInstanceId) (old : ServiceInstance), r.instances[k]? = some old →
      old.service_id = copy.service_id → historical old.lifecycle = false → k = copy.instance_id) :
    (r.bindInstance copy).2.Solitary := by
  intro k k' x x' hx hx' hservice hl hl'
  rcases bindInstance_instances r copy k with hk | ⟨rfl, hk⟩ <;>
    rcases bindInstance_instances r copy k' with hk' | ⟨rfl, hk'⟩
  · exact h k k' x x' (hk ▸ hx) (hk' ▸ hx') hservice hl hl'
  · obtain rfl := Option.some.inj (hx'.symm.trans hk')
    exact hfree k x (hk ▸ hx) hservice hl
  · obtain rfl := Option.some.inj (hx.symm.trans hk)
    exact (hfree k' x' (hk' ▸ hx') hservice.symm hl').symm
  · rfl

/-- A record that is marked as superseded counts no more. -/
theorem Solitary.insert_superseded (h : r.Solitary)
    (hi : t.instances = r.instances.insert k { old with lifecycle := Lifecycle.SUPERSEDED }) : t.Solitary := by
  have hcurrent : ∀ (k' : ServiceInstanceId) (x : ServiceInstance), t.instances[k']? = some x →
      historical x.lifecycle = false → r.instances[k']? = some x := by
    intro k' x hx hl
    rw [hi] at hx
    rcases getElem?_insert_cases r.instances k k' { old with lifecycle := Lifecycle.SUPERSEDED } with ⟨_, hk⟩ | ⟨_, hk⟩
    · obtain rfl := Option.some.inj (hx.symm.trans hk)
      cases hl
    · exact hk.symm.trans hx
  intro k₁ k₂ x₁ x₂ hx₁ hx₂ hservice hl₁ hl₂
  exact h k₁ k₂ x₁ x₂ (hcurrent k₁ x₁ hx₁ hl₁) (hcurrent k₂ x₂ hx₂ hl₂) hservice hl₁ hl₂

theorem Solitary.register_instance (h : r.Solitary) (hscan : scan.Perm r.instances.keys) (inst : ServiceInstance)
    (env : AuthorityEnvelope) :
    (r.register_instance scan inst env).2.Solitary := by
  refine register_instance_state_rule (P := Solitary) ?kept ?superseded ?first
  case kept => exact fun _ _ _ => h
  case first =>
    intro _ _ hc _
    have hsame : { r with next_id := r.assignedNext inst }.Solitary := h
    refine hsame.bindInstance fun k old hk hservice hl => ?_
    exact absurd ⟨hk, hservice, hl⟩ (currentInstance_none hscan hc k old)
  case superseded =>
    intro _ _ id current hc _
    have hcurrent := currentInstance_some hc
    have hmarked : ({ r with next_id := r.assignedNext inst }.supersedeCurrent id current).Solitary :=
      h.insert_superseded (r := r) (k := id) rfl
    refine hmarked.bindInstance fun k old hk hservice hl => ?_
    -- what is left of the service would have been the current instance
    rcases getElem?_insert_cases r.instances id k { current with lifecycle := Lifecycle.SUPERSEDED } with ⟨_, hk'⟩ | ⟨hne, hk'⟩
    · obtain rfl := Option.some.inj (hk.symm.trans hk')
      cases hl
    · have hsame := h id k current old hcurrent.1 (hk'.symm.trans hk) (hcurrent.2.1.trans hservice.symm) hcurrent.2.2 hl
      exact absurd hsame hne

/-- Writing a stored record leaves the keys. -/
theorem keys_insert_perm {x : ServiceInstance} (hi : r.instances[k]? = some old) :
    r.instances.keys.Perm (r.instances.insert k x).keys := by
  refine (List.perm_ext_iff_of_nodup r.instances.nodup_keys (r.instances.insert k x).nodup_keys).2 fun a => ?_
  rw [Std.ExtTreeMap.mem_keys, Std.ExtTreeMap.mem_keys, Std.ExtTreeMap.mem_insert]
  refine ⟨.inr, fun ha => ha.elim (fun hk => ?_) fun ha => ha⟩
  obtain rfl : k = a := by simpa using hk
  rw [Std.ExtTreeMap.mem_iff_isSome_getElem?, hi]
  rfl

theorem Solitary.supersede (h : r.Solitary) (hscan : scan.Perm r.instances.keys) (old_id : ServiceInstanceId)
    (inst : ServiceInstance) : (r.supersede scan old_id inst env).2.Solitary := by
  have hmarked : ∀ old, r.instances[old_id]? = some old → (r.markSuperseded old_id old).Solitary ∧
      scan.Perm (r.markSuperseded old_id old).instances.keys := by
    intro old hold
    exact ⟨h.insert_superseded (r := r) (k := old_id) rfl, hscan.trans (keys_insert_perm hold)⟩
  refine supersede_state_rule (P := Solitary) h fun _ old hold _ => ?_
  obtain ⟨hsol, hperm⟩ := hmarked old hold
  exact hsol.register_instance hperm inst env

theorem historical_revalidate (inst : ServiceInstance) :
    historical (revalidateInstance inst).lifecycle = historical inst.lifecycle := by
  unfold revalidateInstance
  split_ifs with h hl
  · rcases hl with hl | hl <;> simp [historical, hl]
  · rfl
  · rfl

/-- Where the call registers nothing, a record that is not over after it is one of
the service that was not over before, or that the call touches. -/
theorem solitary_origin (hclass : op.class ≠ .image) (hnew : op.newInstance = none)
    (hi : (r.exec scan op).2.instances[k]? = some inst) (hl : historical inst.lifecycle = false) :
    ∃ old, r.instances[k]? = some old ∧ inst.service_id = old.service_id ∧
      (historical old.lifecycle = false ∨ r.Touches op k old) := by
  cases r.exec_change scan op hclass k with
  | kept h => exact ⟨inst, h.symm.trans hi, rfl, .inl hl⟩
  | updated write old hop ha hold h =>
    obtain rfl := Option.some.inj (hi.symm.trans h)
    exact ⟨old, hold, (updates_keeps hop old).2.2, .inr (.inl ⟨⟨write, hop⟩, ha⟩)⟩
  | refreshed old hop hold h =>
    obtain rfl := Option.some.inj (hi.symm.trans h)
    exact ⟨old, hold, rfl, .inr (.inr (.inl hop))⟩
  | dead old hkill hlive hold h =>
    obtain rfl := Option.some.inj (hi.symm.trans h)
    exact ⟨old, hold, rfl, .inr (.inr (.inr ⟨hkill, hlive⟩))⟩
  | revalidated old _ hold h =>
    obtain rfl := Option.some.inj (hi.symm.trans h)
    refine ⟨old, hold, ?_, .inl ((historical_revalidate old).symm.trans hl)⟩
    unfold revalidateInstance
    split_ifs <;> rfl
  | stored inst' hop _ _ _ => rw [hnew] at hop; cases hop
  | superseded old _ _ h =>
    obtain rfl := Option.some.inj (hi.symm.trans h)
    cases hl
  | retired _ old _ _ _ h =>
    obtain rfl := Option.some.inj (hi.symm.trans h)
    cases hl

theorem Solitary.step {e : Event} (h : r.Solitary) (hs : Step r e t) (hload : e.noLoad) (htouches : r.TouchesOne e.op) :
    t.Solitary := by
  rw [hs.state]
  rcases hnew : e.op.newInstance with _ | inst
  · intro k k' x x' hx hx' hservice hl hl'
    obtain ⟨old, hold, hsame, hcase⟩ := solitary_origin hload.class_ne hnew hx hl
    obtain ⟨old', hold', hsame', hcase'⟩ := solitary_origin hload.class_ne hnew hx' hl'
    exact htouches k k' old old' hold hold' (hsame.symm.trans (hservice.trans hsame')) hcase hcase'
  · rcases hop : e.op <;> rw [hop] at hnew <;> simp only [Op.newInstance, reduceCtorEq, Option.some.injEq] at hnew
    case register_instance inst' env => exact h.register_instance hs.1 inst' env
    case supersede old_id inst' env => exact h.supersede hs.1 old_id inst'

/-- The instances of the service in a list of ids. -/
def countService (r : Registry) (service : ServiceId) (ids : List ServiceInstanceId) : ℕ :=
  ids.countP fun id => (r.instances[id]?).any fun inst => inst.service_id = service

/-- In every run without `load_from` whose calls touch no record that is over beside
another of its service, no service has two current instances, and no query for
current instances ranks two of one service. -/
theorem one_current_instance
    (h : Lib.Reachable (Guarded Step fun r e => e.noLoad ∧ r.TouchesOne e.op) fresh r) :
    r.Solitary ∧ ∀ scan q, scan.Perm r.instances.keys → q.current_only = true → ∀ service,
      r.countService service (r.query scan q).rankedIds ≤ 1 := by
  have hsol : r.Solitary := h.inv Solitary (.empty fresh_instances) fun _ _ _ hi hst => hi.step hst.1 hst.2.1 hst.2.2
  have hreach : r.Reachable := by
    obtain ⟨es, hr⟩ := h
    exact ⟨es, hr.unguarded⟩
  refine ⟨hsol, fun scan q hscan hq service => ?_⟩
  have hcurrent := (forall_ranked hreach hscan (q := q) fun inst => historical inst.lifecycle = false).2
    fun id inst svc _ he _ => by simp [historical, he.current hq, he.tombstoned, he.invalidated]
  have hnodup := (nodup_rankedIds (q := q) (wellKeyed_reachable hreach) hscan).filter
    fun id => (r.instances[id]?).any fun inst => inst.service_id = service
  have hone : ∀ id ∈ (r.query scan q).rankedIds.filter fun id =>
      (r.instances[id]?).any fun inst => inst.service_id = service, ∃ inst, r.instances[id]? = some inst ∧
      inst.service_id = service ∧ historical inst.lifecycle = false := by
    intro id hid
    obtain ⟨hranked, hservice⟩ := List.mem_filter.1 hid
    obtain ⟨inst, hi, hl⟩ := hcurrent id hranked
    exact ⟨inst, hi, by simpa [hi] using hservice, hl⟩
  rw [countService, List.countP_eq_length_filter]
  generalize (r.query scan q).rankedIds.filter _ = ids at hone hnodup ⊢
  rcases ids with _ | ⟨a, _ | ⟨b, ids⟩⟩
  · exact Nat.zero_le _
  · exact le_rfl
  · obtain ⟨x, hx, hxs, hxl⟩ := hone a List.mem_cons_self
    obtain ⟨y, hy, hys, hyl⟩ := hone b (List.mem_cons_of_mem _ List.mem_cons_self)
    rw [hsol a b x y hx hy (hxs.trans hys.symm) hxl hyl, List.nodup_cons] at hnodup
    exact absurd List.mem_cons_self hnodup.1

/-- A registration touches no record. -/
theorem Solitary.touchesOne (h : r.Solitary) (hnew : op.newInstance = some inst) : r.TouchesOne op := by
  have hnot : ∀ (k : ServiceInstanceId) (old : ServiceInstance), ¬ r.Touches op k old := by
    rintro k old (⟨⟨_, hop⟩, _⟩ | ⟨_, _, _, _, rfl, _⟩ | ⟨hop, _⟩)
    · cases op <;> simp [Op.newInstance, Op.updates] at hnew hop
    · cases hnew
    · cases op <;> simp [Op.newInstance, Op.Kills] at hnew hop
  intro k k' old old' hold hold' hservice hl hl'
  exact h k k' old old' hold hold' hservice (hl.resolve_right (hnot k old)) (hl'.resolve_right (hnot k' old'))

theorem touchesOne_of_empty (h : r.instances.isEmpty = true) : r.TouchesOne op := by
  rw [Std.ExtTreeMap.isEmpty_iff] at h
  intro k k' old old' hold
  simp [h] at hold

/-- The registrations of the sample, and the one that supersedes its instance. -/
theorem one_current_instance_replaced : Sample.replaced.Solitary ∧ ∀ scan q,
    scan.Perm Sample.replaced.instances.keys → q.current_only = true → ∀ service,
      Sample.replaced.countService service (Sample.replaced.query scan q).rankedIds ≤ 1 := by
  have hmeets : Meets (fun r op => (∀ data, op ≠ .load_from data) ∧ r.TouchesOne op) fresh (Sample.setup ++
      [.register_instance (Sample.incarnation 6 2) Sample.env]) := by
    refine ⟨⟨fun _ h => (by cases h), touchesOne_of_empty (by decide +kernel)⟩, ⟨fun _ h => (by cases h),
      touchesOne_of_empty (by decide +kernel)⟩, ⟨fun _ h => (by cases h), touchesOne_of_empty (by decide +kernel)⟩,
      ⟨fun _ h => (by cases h), Solitary.touchesOne ?_ rfl⟩, trivial⟩
    refine Solitary.register_instance ?_ (.refl _) _ _
    exact .empty (Std.ExtTreeMap.isEmpty_iff.1 (by decide +kernel))
  obtain ⟨es, hr⟩ := hmeets.run
  exact one_current_instance ⟨es, hr⟩

/-- The superseded instance that is available again stands beside the new one. -/
theorem two_current_instances : Sample.revived.ReachableWithoutLoad ∧ ¬ Sample.revived.Solitary ∧
    Sample.revived.countService ⟨3⟩
      (Sample.revived.query Sample.revived.instances.keys { current_only := true }).rankedIds = 2 := by
  have hold : ∃ inst ∈ Sample.revived.instances[(⟨5⟩ : ServiceInstanceId)]?,
      inst.service_id = ⟨3⟩ ∧ historical inst.lifecycle = false := by decide +kernel
  have hnew : ∃ inst ∈ Sample.revived.instances[(⟨6⟩ : ServiceInstanceId)]?,
      inst.service_id = ⟨3⟩ ∧ historical inst.lifecycle = false := by decide +kernel
  obtain ⟨x, hx, hxs, hxl⟩ := hold
  obtain ⟨y, hy, hys, hyl⟩ := hnew
  refine ⟨replaced_reachable.after (by simp), fun h => ?_, by decide +kernel⟩
  exact absurd (h ⟨5⟩ ⟨6⟩ x y hx hy (hxs.trans hys.symm) hxl hyl) (by decide)

end Registry

end RuntimeRegistry
