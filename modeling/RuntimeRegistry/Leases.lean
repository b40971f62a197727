import RuntimeRegistry.Endpoints
/-!
# The end of a lease

What a call does to one lease, as `Changes` tells it of the instances, and two
things that are meant to follow: an active lease has a living owner, and a revoked
one stays revoked. A death looks for the leases through the instances, a renewal
for the owner through the instance, and a revocation at active leases only.
-/
open Lib

namespace RuntimeRegistry

/-! A worker that leases to itself, and the instance that holds the lease. -/
namespace Sample

def owned : LeaseDescriptor := { lease_id := ⟨9⟩, boot := ⟨101⟩, state := LeaseState.ACTIVE }

def leasing : List Op := [.adopt_worker ⟨1⟩, .register_service service env, .acquire_lease owned env]

def holding : Op := .register_instance { incarnation 5 1 with lease := ⟨9⟩ } env

end Sample

namespace Registry

variable {r s t : Registry} {env : AuthorityEnvelope} {scan : List ServiceInstanceId} {l : LeaseId}

/-! ## What a call does to one lease -/

/-- The checks of `renew_lease`. -/
structure Renewable (r : Registry) (l : LeaseId) (env : AuthorityEnvelope) (lease : LeaseDescriptor) : Prop where
  accepts : r.Accepts env
  stored : r.leases[l]? = some lease
  not_revoked : lease.state ≠ LeaseState.REVOKED
  own_boot : ∀ inst, r.instances[lease.service_instance]? = some inst → inst.boot = env.boot
  own_generation : env.lease_generation.value = 0 ∨ env.lease_generation = lease.generation

/-- How a call can leave the lease under `l`. -/
inductive LeaseChange (r : Registry) (op : Op) (t : Registry) (l : LeaseId) : Prop
  | kept (h : t.leases[l]? = r.leases[l]?)
  | acquired (lease : LeaseDescriptor) (env : AuthorityEnvelope) (hop : op = .acquire_lease lease env)
      (ha : r.Accepts env) (hl : r.assignedLease lease = l)
      (h : t.leases[l]? = some { lease with lease_id := l, generation := r.authority.lease_gen.succ })
  | renewed (env : AuthorityEnvelope) (old : LeaseDescriptor) (hop : op = .renew_lease l env)
      (hr : r.Renewable l env old) (h : t.leases[l]? = some { old with state := LeaseState.ACTIVE })
  | expired (env : AuthorityEnvelope) (old : LeaseDescriptor) (hop : op = .expire_lease l env) (ha : r.Accepts env)
      (hold : r.leases[l]? = some old) (hactive : old.state = LeaseState.ACTIVE)
      (h : t.leases[l]? = some { old with state := LeaseState.EXPIRED })
  | revoked (env : AuthorityEnvelope) (old : LeaseDescriptor) (hop : op = .revoke_lease l env) (ha : r.Accepts env)
      (hold : r.leases[l]? = some old) (hactive : old.state = LeaseState.ACTIVE)
      (h : t.leases[l]? = some { old with state := LeaseState.REVOKED })
  | marked (old : LeaseDescriptor) (hop : op = .mark_lease_revalidation_required l) (hold : r.leases[l]? = some old)
      (hactive : old.state = LeaseState.ACTIVE)
      (h : t.leases[l]? = some { old with state := LeaseState.REVALIDATION_REQUIRED })
  | dead (boot : WorkerBootId) (old : LeaseDescriptor) (hkill : op.Kills r boot)
      (hholds : r.HoldsLease boot r.instances.keys l) (hold : r.leases[l]? = some old)
      (h : t.leases[l]? = some (expiredLease old))
  | revalidated (old : LeaseDescriptor) (hop : op = .begin_coordinator_epoch) (hold : r.leases[l]? = some old)
      (h : t.leases[l]? = some (revalidateLease old))

/-- Only the leases of the end state matter. -/
theorem LeaseChange.congr {op : Op} (h : LeaseChange r op s l) (hl : t.leases = s.leases) : LeaseChange r op t l := by
  cases h with
  | kept h => exact .kept (hl ▸ h)
  | acquired lease env hop ha hid h => exact .acquired lease env hop ha hid (hl ▸ h)
  | renewed env old hop hr h => exact .renewed env old hop hr (hl ▸ h)
  | expired env old hop ha hold hactive h => exact .expired env old hop ha hold hactive (hl ▸ h)
  | revoked env old hop ha hold hactive h => exact .revoked env old hop ha hold hactive (hl ▸ h)
  | marked old hop hold hactive h => exact .marked old hop hold hactive (hl ▸ h)
  | dead boot old hkill hholds hold h => exact .dead boot old hkill hholds hold (hl ▸ h)
  | revalidated old hop hold h => exact .revalidated old hop hold (hl ▸ h)

theorem acquire_lease_leases {lease : LeaseDescriptor} (ha : r.Accepts env) : (r.acquire_lease lease env).2.leases =
    r.leases.insert (r.assignedLease lease)
      { lease with lease_id := r.assignedLease lease, generation := r.authority.lease_gen.succ } := by
  rw [acquire_lease, authorized_accepted ha]
  unfold assignedLease
  by_cases h : lease.lease_id.value = 0
  · simp only [if_pos h]; rfl
  · simp only [if_neg h]; rfl

theorem acquire_lease_change (lease : LeaseDescriptor) (l : LeaseId) :
    LeaseChange r (.acquire_lease lease env) (r.acquire_lease lease env).2 l := by
  by_cases ha : r.Accepts env
  · have hstored : (r.acquire_lease lease env).2.leases = _ := acquire_lease_leases ha
    have hleases := congrArg (·[l]?) hstored
    rcases getElem?_insert_cases r.leases (r.assignedLease lease) l
      { lease with lease_id := r.assignedLease lease, generation := r.authority.lease_gen.succ } with ⟨rfl, h⟩ | ⟨_, h⟩
    · exact .acquired lease env rfl ha rfl (hleases.trans h)
    · exact .kept (hleases.trans h)
  · obtain ⟨e, he⟩ := authorized_rejected ha (_ : Outcome LeaseId)
    exact .kept (by rw [acquire_lease, he])

theorem renew_lease_change (id l : LeaseId) : LeaseChange r (.renew_lease id env) (r.renew_lease id env).2 l := by
  apply authorized_rule (P := fun o => LeaseChange r _ o.2 l)
  case rejected => exact fun _ _ => .kept rfl
  case accepted =>
    intro ha
    split
    · exact .kept rfl
    · rename_i lease hold
      split_ifs with hrevoked hboot hgen
      · exact .kept rfl
      · exact .kept rfl
      · exact .kept rfl
      · rcases getElem?_insert_cases r.leases id l { lease with state := LeaseState.ACTIVE } with ⟨rfl, h⟩ | ⟨_, h⟩
        · refine .renewed env lease rfl ⟨ha, hold, hrevoked, fun inst hi => ?_, ?_⟩ h
          · simpa [hi] using hboot
          · exact or_iff_not_imp_left.2 fun h0 => not_not.1 fun hne => hgen ⟨h0, hne⟩
        · exact .kept h

/-- The end of an active lease writes its state, and any other end nothing. -/
theorem endLease_leases (id l : LeaseId) (state : LeaseState) :
    (r.endLease id state env).2.leases[l]? = r.leases[l]? ∨
      l = id ∧ r.Accepts env ∧ ∃ old, r.leases[l]? = some old ∧ old.state = LeaseState.ACTIVE ∧
        (r.endLease id state env).2.leases[l]? = some { old with state := state } := by
  apply endLease_rule (P := fun o => o.2.leases[l]? = r.leases[l]? ∨ l = id ∧ r.Accepts env ∧
    ∃ old, r.leases[l]? = some old ∧ old.state = LeaseState.ACTIVE ∧ o.2.leases[l]? = some { old with state := state })
  case rejected => exact fun _ _ => .inl rfl
  case unknown => exact fun _ _ => .inl rfl
  case inactive => exact fun _ _ _ _ => .inl rfl
  case ended =>
    intro ha lease hold hactive
    rcases getElem?_insert_cases r.leases id l { lease with state := state } with ⟨rfl, h⟩ | ⟨_, h⟩
    · exact .inr ⟨rfl, ha, lease, hold, hactive, h⟩
    · exact .inl h

theorem expire_lease_change (id l : LeaseId) : LeaseChange r (.expire_lease id env) (r.expire_lease id env).2 l := by
  rcases endLease_leases (r := r) id l .EXPIRED with h | ⟨rfl, ha, old, hold, hactive, h⟩
  · exact .kept h
  · exact .expired env old rfl ha hold hactive h

theorem revoke_lease_change (id l : LeaseId) : LeaseChange r (.revoke_lease id env) (r.revoke_lease id env).2 l := by
  rcases endLease_leases (r := r) id l .REVOKED with h | ⟨rfl, ha, old, hold, hactive, h⟩
  · exact .kept h
  · exact .revoked env old rfl ha hold hactive h

theorem mark_lease_change (id l : LeaseId) :
    LeaseChange r (.mark_lease_revalidation_required id) (r.mark_lease_revalidation_required id) l := by
  apply mark_lease_revalidation_required_rule (P := fun t => LeaseChange r (.mark_lease_revalidation_required id) t l)
  case kept => exact .kept rfl
  case marked =>
    intro lease hold hactive
    rcases getElem?_insert_cases r.leases id l { lease with state := LeaseState.REVALIDATION_REQUIRED } with ⟨rfl, h⟩ | ⟨_, h⟩
    · exact .marked lease rfl hold hactive h
    · exact .kept h

theorem revoke_boot_lease_change {op : Op} {boot : WorkerBootId} (hkill : op.Kills r boot)
    (hs : s.instances = r.instances) (hl : s.leases = r.leases) (l : LeaseId) :
    LeaseChange r op (s.revoke_boot_internal boot) l := by
  rcases s.revoke_leases boot l with ⟨_, hholds, h⟩ | ⟨_, h⟩
  · rw [hl] at h
    rw [HoldsLease, hs] at hholds
    rcases hold : r.leases[l]? with _ | old
    · exact .kept (by rw [h, hold]; rfl)
    · exact .dead boot old hkill hholds hold (by rw [h, hold]; rfl)
  · exact .kept (by rw [h, hl])

theorem begin_coordinator_epoch_lease_change (l : LeaseId) :
    LeaseChange r .begin_coordinator_epoch r.begin_coordinator_epoch l := by
  have h : r.begin_coordinator_epoch.leases[l]? = r.leases[l]?.map revalidateLease := by simp [begin_coordinator_epoch]
  rcases hold : r.leases[l]? with _ | old
  · exact .kept (by rw [h, hold]; rfl)
  · exact .revalidated old rfl hold (by rw [h, hold]; rfl)

/-- Every call other than `load_from` changes a lease in one of the ways listed. -/
theorem exec_lease_change (r : Registry) (scan : List ServiceInstanceId) (op : Op) (himage : op.class ≠ .image)
    (l : LeaseId) : LeaseChange r op (r.exec scan op).2 l := by
  rcases hc : op.class
  case descriptor | inst | tombstone | note =>
    exact .kept (by rw [(r.exec_frame scan himage).leases (by simp [hc]) (by simp [hc])])
  case lease =>
    cases op <;> simp only [Op.class, reduceCtorEq] at hc
    case acquire_lease lease env => exact acquire_lease_change lease l
    case renew_lease id env => exact renew_lease_change id l
    case expire_lease id env => exact expire_lease_change id l
    case revoke_lease id env => exact revoke_lease_change id l
    case mark_lease_revalidation_required id => exact mark_lease_change id l
  case incarnation =>
    cases op <;> simp only [Op.class, reduceCtorEq] at hc
    case begin_coordinator_epoch => exact begin_coordinator_epoch_lease_change l
    case mark_worker_died boot =>
      have hkill : Op.Kills r (.mark_worker_died boot) boot := rfl
      exact revoke_boot_lease_change hkill rfl rfl l
    case adopt_worker worker =>
      apply adopt_worker_rule (P := fun t => LeaseChange r (.adopt_worker worker) t l)
      case first => exact fun _ => .kept rfl
      case again =>
        intro prev hprev hne
        have hkill : Op.Kills r (.adopt_worker worker) prev := ⟨hprev, hne⟩
        exact (revoke_boot_lease_change (s := { r with next_boot := r.next_boot + 1 }) hkill rfl rfl l).congr rfl
  case image => exact absurd hc himage

/-! ## Revocation -/

/-- The lease is stored and revoked. -/
def RevokedLease (r : Registry) (l : LeaseId) : Prop :=
  ∃ lease, r.leases[l]? = some lease ∧ lease.state = LeaseState.REVOKED

/-- The call stores no other lease under `l`. -/
def SparesLease (r : Registry) (op : Op) (l : LeaseId) : Prop :=
  ∀ lease env, op = .acquire_lease lease env → r.Accepts env → r.assignedLease lease ≠ l

theorem RevokedLease.not_active (h : r.RevokedLease l) : ¬ r.ActiveLease l := by
  obtain ⟨lease, hl, hrevoked⟩ := h
  rintro ⟨lease', hl', hactive⟩
  obtain rfl : lease = lease' := Option.some.inj (hl.symm.trans hl')
  rw [hrevoked] at hactive
  cases hactive

/-- Nothing but another lease stored in its place moves a revoked lease. -/
theorem RevokedLease.exec {op : Op} (h : r.RevokedLease l) (scan : List ServiceInstanceId) (himage : op.class ≠ .image)
    (hspares : r.SparesLease op l) : (r.exec scan op).2.RevokedLease l := by
  obtain ⟨lease, hl, hrevoked⟩ := h
  have hsame : ∀ {old : LeaseDescriptor}, r.leases[l]? = some old → old.state = LeaseState.REVOKED := by
    intro old hold
    obtain rfl : lease = old := Option.some.inj (hl.symm.trans hold)
    exact hrevoked
  have hnot : ¬ (LeaseState.REVOKED : Enum LeaseState) = LeaseState.ACTIVE := by decide
  cases r.exec_lease_change scan op himage l with
  | kept h => exact ⟨lease, h.trans hl, hrevoked⟩
  | acquired lease' env hop ha hid _ => exact absurd hid (hspares lease' env hop ha)
  | renewed env old _ hr _ => exact absurd (hsame hr.stored) hr.not_revoked
  | expired env old _ _ hold hactive _ => exact absurd ((hsame hold).symm.trans hactive) hnot
  | revoked env old _ _ hold hactive _ => exact absurd ((hsame hold).symm.trans hactive) hnot
  | marked old _ hold hactive _ => exact absurd ((hsame hold).symm.trans hactive) hnot
  | dead boot old _ _ hold h =>
    refine ⟨_, h, ?_⟩
    rw [expiredLease, hsame hold, if_neg hnot, hsame hold]
  | revalidated old _ hold h =>
    refine ⟨_, h, ?_⟩
    rw [revalidateLease, hsame hold, if_neg hnot, hsame hold]

/-- A revocation that returns revokes an active lease, and leaves a revoked one. -/
theorem revoke_lease_revokes {old : LeaseDescriptor} (hold : r.leases[l]? = some old)
    (hstate : old.state = LeaseState.ACTIVE ∨ old.state = LeaseState.REVOKED) (h : (r.revoke_lease l env).Returns) :
    (r.revoke_lease l env).2.RevokedLease l := by
  revert h
  apply endLease_rule (P := fun o => o.Returns → o.2.RevokedLease l)
  case rejected => exact fun e _ h => absurd h (Outcome.not_returns_error e _)
  case unknown => exact fun _ hnone => by cases hnone.symm.trans hold
  case inactive =>
    intro _ lease hl hinactive _
    obtain rfl : old = lease := Option.some.inj (hold.symm.trans hl)
    exact ⟨old, hold, hstate.resolve_left hinactive⟩
  case ended =>
    intro _ lease _ _ _
    exact ⟨{ lease with state := LeaseState.REVOKED }, Std.ExtTreeMap.getElem?_insert_self, rfl⟩

/-- In every run without `load_from` that goes on from a revocation of an active or
revoked lease, the lease is never active again, unless an acquisition stores another
one under its id. -/
theorem revocation_final {e : Event} {u : Registry} {old : LeaseDescriptor} (hs : Step s e u)
    (hop : e.op = .revoke_lease l env) (hreply : ∃ reply, e.reply = .ok reply) (hold : s.leases[l]? = some old)
    (hstate : old.state = LeaseState.ACTIVE ∨ old.state = LeaseState.REVOKED) {es : List Event}
    (hr : Run (Guarded Step fun r e => e.noLoad ∧ r.SparesLease e.op l) u es t) : ¬ t.ActiveLease l := by
  have hreturns : (s.exec e.scan (.revoke_lease l env)).Returns := by
    have hexec := hs.2
    rw [hop] at hexec
    rw [hexec]
    exact hreply
  have hrevoked : u.RevokedLease l := by
    rw [hs.state, hop]
    exact revoke_lease_revokes hold hstate ((Outcome.map_returns _ _).1 hreturns)
  have hfinal : t.RevokedLease l := by
    refine hr.inv (fun r => r.RevokedLease l) (fun r e r' hrev hst => ?_) hrevoked
    rw [hst.1.state]
    exact hrev.exec e.scan hst.2.1.class_ne hst.2.2
  exact hfinal.not_active

/-- The active lease of the sample is revoked, and a renewal after that refused. -/
theorem revocation_final_renewal :
    ¬ (((fresh.after Sample.leasing).after [.revoke_lease ⟨9⟩ Sample.env]).after
      [.renew_lease ⟨9⟩ Sample.env]).ActiveLease ⟨9⟩ := by
  have hstored : ∃ lease ∈ (fresh.after Sample.leasing).leases[(⟨9⟩ : LeaseId)]?, lease.state = LeaseState.ACTIVE := by
    decide +kernel
  have hreply : ∃ reply, ((fresh.after Sample.leasing).call (.revoke_lease ⟨9⟩ Sample.env)).reply = .ok reply :=
    exists_ok (by decide +kernel)
  obtain ⟨old, hold, hactive⟩ := hstored
  refine revocation_final (step_call _ _) rfl hreply hold (.inl hactive) (.single ⟨step_call _ _, ?_, ?_⟩)
  · exact fun _ hop => nomatch hop
  · exact fun _ _ hop => nomatch hop

/-- A lease that waits for revalidation is revoked without effect, and renewed. -/
theorem revoked_lease_renewed :
    let s := fresh.after (Sample.leasing ++ [.mark_lease_revalidation_required ⟨9⟩])
    let t := (s.after [.revoke_lease ⟨9⟩ Sample.env]).after [.renew_lease ⟨9⟩ Sample.env]
    s.ReachableWithoutLoad ∧ (∃ old, s.leases[(⟨9⟩ : LeaseId)]? = some old) ∧
      (s.revoke_lease ⟨9⟩ Sample.env).Returns ∧
      Step s (s.call (.revoke_lease ⟨9⟩ Sample.env)) (s.after [.revoke_lease ⟨9⟩ Sample.env]) ∧
      Run (Guarded Step fun _ e => e.noLoad ∧ ∀ lease env, e.op ≠ .acquire_lease lease env)
        (s.after [.revoke_lease ⟨9⟩ Sample.env])
        [(s.after [.revoke_lease ⟨9⟩ Sample.env]).call (.renew_lease ⟨9⟩ Sample.env)] t ∧ t.ActiveLease ⟨9⟩ := by
  intro s t
  have hstored : ∃ old ∈ s.leases[(⟨9⟩ : LeaseId)]?, True := by decide +kernel
  have hactive : ∃ lease ∈ t.leases[(⟨9⟩ : LeaseId)]?, lease.state = LeaseState.ACTIVE := by decide +kernel
  have hreturns : (s.revoke_lease ⟨9⟩ Sample.env).Returns := exists_ok (by decide +kernel)
  obtain ⟨old, hold, -⟩ := hstored
  refine ⟨ReachableWithoutLoad.after (.refl _) (by simp [Sample.leasing]), ⟨old, hold⟩, hreturns,
    step_call _ _, .single ⟨step_call _ _, fun _ hop => (nomatch hop), fun _ _ hop => (nomatch hop)⟩, hactive⟩

/-! ## Owners -/

/-- Every active lease belongs to a live boot. -/
def LivingOwners (r : Registry) : Prop :=
  ∀ (l : LeaseId) (lease : LeaseDescriptor), r.leases[l]? = some lease → lease.state = LeaseState.ACTIVE →
    r.authority.is_boot_live lease.boot = true

/-- An acquired lease names the boot of the envelope. -/
def OwnLeases (op : Op) : Prop := ∀ lease env, op = .acquire_lease lease env → lease.boot = env.boot

/-- A boot that dies holds each of its active leases by a stored instance, and only
leases of live boots are renewed. -/
structure KeepsOwners (r : Registry) (op : Op) : Prop where
  dies : ∀ (l : LeaseId) (lease : LeaseDescriptor), op.Kills r lease.boot → r.authority.is_boot_live lease.boot = true → r.leases[l]? = some lease →
    lease.state = LeaseState.ACTIVE → r.HoldsLease lease.boot r.instances.keys l
  renews : ∀ l env lease, op = .renew_lease l env → r.Renewable l env lease → r.authority.is_boot_live lease.boot = true

theorem expiredLease_inactive (lease : LeaseDescriptor) : (expiredLease lease).state ≠ LeaseState.ACTIVE := by
  unfold expiredLease
  split_ifs with h
  · exact fun hactive => nomatch hactive
  · exact h

theorem revalidateLease_inactive (lease : LeaseDescriptor) : (revalidateLease lease).state ≠ LeaseState.ACTIVE := by
  unfold revalidateLease
  split_ifs with h
  · exact fun hactive => nomatch hactive
  · exact h

/-- A lease that an instance of a boot holds is not active behind the death of the boot. -/
theorem revoke_held_lease {boot : WorkerBootId} (hlive : r.authority.is_boot_live boot = true)
    (hholds : r.HoldsLease boot r.instances.keys l) : ¬ (r.revoke_boot_internal boot).ActiveLease l := by
  rintro ⟨lease, hl, hactive⟩
  rcases r.revoke_leases boot l with ⟨_, _, h⟩ | ⟨hnot, _⟩
  · rw [h, Option.map_eq_some_iff] at hl
    obtain ⟨old, _, rfl⟩ := hl
    exact expiredLease_inactive old hactive
  · exact hnot ⟨hlive, hholds⟩

theorem kills_held_lease {op : Op} {boot : WorkerBootId} (hkill : op.Kills r boot)
    (hlive : r.authority.is_boot_live boot = true) (hholds : r.HoldsLease boot r.instances.keys l) :
    ¬ (r.exec scan op).2.ActiveLease l := by
  cases op <;> try exact hkill.elim
  case mark_worker_died boot' =>
    obtain rfl : boot = boot' := hkill
    exact revoke_held_lease hlive hholds
  case adopt_worker worker =>
    apply adopt_worker_rule (P := fun t => ¬ t.ActiveLease l)
    case first => exact fun hfirst => absurd (hfirst _ hkill.1) hkill.2
    case again =>
      intro prev hprev _
      obtain rfl : prev = boot := Option.some.inj (hprev.symm.trans hkill.1)
      exact revoke_held_lease (r := { r with next_boot := r.next_boot + 1 }) hlive hholds

theorem LivingOwners.step {e : Event} (h : r.LivingOwners) (hs : Step r e t) (hload : e.noLoad) (hown : OwnLeases e.op)
    (hkeeps : r.KeepsOwners e.op) : t.LivingOwners := by
  intro l lease hl hactive
  have hchange := r.exec_lease_change e.scan e.op hload.class_ne l
  rw [← hs.state] at hchange
  -- a new epoch leaves no lease active
  by_cases hepoch : e.op = .begin_coordinator_epoch
  · rw [hs.state, hepoch] at hl
    have hmap : r.begin_coordinator_epoch.leases[l]? = r.leases[l]?.map revalidateLease := by
      simp [begin_coordinator_epoch]
    obtain ⟨old, _, rfl⟩ := Option.map_eq_some_iff.1 (hmap.symm.trans hl)
    exact absurd hactive (revalidateLease_inactive old)
  have hstays : ∀ b, r.authority.is_boot_live b = true → ¬ e.op.Kills r b → t.authority.is_boot_live b = true := by
    intro b hlive hkill
    rw [hs.state]
    exact exec_live hlive hload.class_ne hepoch hkill
  have hother : ∀ b, e.op.class ≠ .incarnation → r.authority.is_boot_live b = true → t.authority.is_boot_live b = true := by
    intro b hclass hlive
    rw [hs.state, RegistryAuthority.is_boot_live, (r.exec_incarnations e.scan e.op hclass hload.class_ne).1.live_boots]
    exact hlive
  cases hchange with
  | kept hk =>
    have hold := hk.symm.trans hl
    have hlive := h l lease hold hactive
    refine hstays _ hlive fun hkill => ?_
    have hended : ¬ (r.exec e.scan e.op).2.ActiveLease l :=
      kills_held_lease hkill hlive (hkeeps.dies l lease hkill hlive hold hactive)
    rw [← hs.state] at hended
    exact hended ⟨lease, hl, hactive⟩
  | acquired lease' env hop ha _ hk =>
    obtain rfl := Option.some.inj (hl.symm.trans hk)
    have hboot : lease'.boot = env.boot := hown lease' env hop
    refine hother _ (by simp [hop, Op.class]) ?_
    show r.authority.is_boot_live lease'.boot = true
    rw [hboot]
    exact ha.2
  | renewed env old hop hr hk =>
    obtain rfl := Option.some.inj (hl.symm.trans hk)
    exact hother _ (by simp [hop, Op.class]) (hkeeps.renews l env old hop hr)
  | expired env old _ _ _ _ hk =>
    obtain rfl := Option.some.inj (hl.symm.trans hk)
    cases hactive
  | revoked env old _ _ _ _ hk =>
    obtain rfl := Option.some.inj (hl.symm.trans hk)
    cases hactive
  | marked old _ _ _ hk =>
    obtain rfl := Option.some.inj (hl.symm.trans hk)
    cases hactive
  | dead boot old _ _ _ hk =>
    obtain rfl := Option.some.inj (hl.symm.trans hk)
    exact absurd hactive (expiredLease_inactive old)
  | revalidated old hop _ _ => exact absurd hop hepoch

/-- In every state that runs lead to without `load_from`, in which each acquired lease
names the boot of its envelope, every active lease belongs to a live boot, if what
dies holds its leases by instances and what is renewed belongs to a live boot. -/
theorem active_lease_owned
    (h : Lib.Reachable (Guarded Step fun r e => e.noLoad ∧ OwnLeases e.op ∧ r.KeepsOwners e.op) fresh r) :
    r.LivingOwners := by
  refine h.inv LivingOwners ?_ fun _ _ _ hi hst => hi.step hst.1 hst.2.1 hst.2.2.1 hst.2.2.2
  intro l lease hl
  have hempty : fresh.leases = ∅ := Std.ExtTreeMap.isEmpty_iff.1 (by decide +kernel)
  simp [hempty] at hl

/-- A call that kills nothing and renews nothing keeps the owners. -/
theorem keepsOwners_of_quiet {op : Op} (hkill : ∀ b, ¬ op.Kills r b) (hrenew : ∀ l env, op ≠ .renew_lease l env) :
    r.KeepsOwners op :=
  ⟨fun _ lease hk => absurd hk (hkill lease.boot), fun l env _ hop => absurd hop (hrenew l env)⟩

/-- The worker that holds the lease by its instance dies. -/
theorem active_lease_owned_death :
    (fresh.after (Sample.leasing ++ [Sample.holding, .mark_worker_died ⟨101⟩])).LivingOwners := by
  have hmeets : Meets (fun r op => (∀ data, op ≠ .load_from data) ∧ OwnLeases op ∧ r.KeepsOwners op) fresh
      (Sample.leasing ++ [Sample.holding, .mark_worker_died ⟨101⟩]) := by
    have hquiet : ∀ r : Registry, r.authority.current_boot.isEmpty = true → r.KeepsOwners (.adopt_worker ⟨1⟩) := by
      intro r hempty
      refine keepsOwners_of_quiet (fun b hk => ?_) fun _ _ hop => nomatch hop
      have hnone := hk.1
      rw [Std.ExtTreeMap.isEmpty_iff.1 hempty] at hnone
      simp at hnone
    refine ⟨⟨fun _ hop => (nomatch hop), fun _ _ hop => (nomatch hop), hquiet _ (by decide +kernel)⟩,
      ⟨fun _ hop => (nomatch hop), fun _ _ hop => (nomatch hop), keepsOwners_of_quiet (fun _ hk => hk) fun _ _ hop => (nomatch hop)⟩,
      ⟨fun _ hop => (nomatch hop), ?_, keepsOwners_of_quiet (fun _ hk => hk) fun _ _ hop => (nomatch hop)⟩,
      ⟨fun _ hop => (nomatch hop), fun _ _ hop => (nomatch hop), keepsOwners_of_quiet (fun _ hk => hk) fun _ _ hop => (nomatch hop)⟩,
      ⟨fun _ hop => (nomatch hop), fun _ _ hop => (nomatch hop), ⟨?_, fun _ _ _ hop => (nomatch hop)⟩⟩, trivial⟩
    · rintro lease env ⟨⟩
      rfl
    · intro l lease hkill _ hl _
      have hkeys : (fresh.after (Sample.leasing ++ [Sample.holding])).leases.keys = [⟨9⟩] := by decide +kernel
      have hholds : (fresh.after (Sample.leasing ++ [Sample.holding])).HoldsLease ⟨101⟩
          (fresh.after (Sample.leasing ++ [Sample.holding])).instances.keys ⟨9⟩ := by
        unfold HoldsLease
        decide +kernel
      have hmem : l ∈ (fresh.after (Sample.leasing ++ [Sample.holding])).leases.keys :=
        Std.ExtTreeMap.mem_keys.2 (Std.ExtTreeMap.mem_iff_isSome_getElem?.2 (Option.isSome_iff_exists.2 ⟨lease, hl⟩))
      rw [hkeys, List.mem_singleton] at hmem
      rw [hmem, show lease.boot = ⟨101⟩ from hkill]
      exact hholds
  obtain ⟨es, hr⟩ := hmeets.run
  exact active_lease_owned ⟨es, hr⟩

/-- A lease that no instance holds outlives the worker it was issued to. -/
theorem active_lease_orphaned :
    let r := fresh.after (Sample.leasing ++ [.mark_worker_died ⟨101⟩])
    Lib.Reachable (Guarded Step fun _ e => e.noLoad ∧ OwnLeases e.op) fresh r ∧
      ∃ lease, r.leases[(⟨9⟩ : LeaseId)]? = some lease ∧ lease.state = LeaseState.ACTIVE ∧
        r.authority.is_boot_live lease.boot = false := by
  intro r
  have horphan : ∃ lease ∈ r.leases[(⟨9⟩ : LeaseId)]?,
      lease.state = LeaseState.ACTIVE ∧ r.authority.is_boot_live lease.boot = false := by decide +kernel
  refine ⟨run_after fresh (Q := fun op => (∀ data, op ≠ .load_from data) ∧ OwnLeases op) _ ?_, horphan⟩
  intro op hop
  simp only [Sample.leasing, List.cons_append, List.nil_append, List.mem_cons, List.not_mem_nil, or_false] at hop
  rcases hop with rfl | rfl | rfl | rfl
  · exact ⟨fun _ hop => (nomatch hop), fun _ _ hop => (nomatch hop)⟩
  · exact ⟨fun _ hop => (nomatch hop), fun _ _ hop => (nomatch hop)⟩
  · refine ⟨fun _ hop => (nomatch hop), ?_⟩
    rintro lease env ⟨⟩
    rfl
  · exact ⟨fun _ hop => (nomatch hop), fun _ _ hop => (nomatch hop)⟩

end Registry

end RuntimeRegistry
