import RuntimeRegistry.Coordinator
import RuntimeRegistry.Deaths
/-!
# Connections close in any order

Each connection that closes reports a boot dead, and the walk of that death follows
the buckets of a hash table. Two deaths write the same maps, and their instances may
share leases, endpoints and a worker. Their rounds commute, so the coordinator ends in
one state whichever connection closed first and however each walk went.
-/
open Lib

namespace RuntimeRegistry

/-! ## Two deaths in the authority state -/

/-- What a death leaves of the boots that workers are at. -/
def vacated (boots : Map .WorkerId WorkerBootId) (owner : WorkerId) (boot : WorkerBootId) : Map .WorkerId WorkerBootId :=
  if boots[owner]? = some boot then boots.insert owner {} else boots

theorem vacated_getElem? (boots : Map .WorkerId WorkerBootId) (owner k : WorkerId) (boot : WorkerBootId) :
    (vacated boots owner boot)[k]? = if owner = k ∧ boots[k]? = some boot then some {} else boots[k]? := by
  unfold vacated
  by_cases hk : owner = k
  · subst hk
    split_ifs <;> simp_all
  · simp only [hk, false_and, if_false]
    split_ifs
    · rw [Std.ExtTreeMap.getElem?_insert, if_neg (by simpa using hk)]
    · rfl

theorem vacated_comm (boots : Map .WorkerId WorkerBootId) (owner owner' : WorkerId) (boot boot' : WorkerBootId) :
    vacated (vacated boots owner boot) owner' boot' = vacated (vacated boots owner' boot') owner boot := by
  refine Std.ExtTreeMap.ext_getElem? fun k => ?_
  simp only [vacated_getElem?]
  split_ifs <;> simp_all

namespace RegistryAuthority

theorem revokeAuthority_eq (a : RegistryAuthority) (boot : WorkerBootId) : Registry.revokeAuthority a boot = { a with
    live_boots := a.live_boots.erase boot
    current_boot := vacated a.current_boot (a.boot_owner boot) boot
    boot_worker := a.boot_worker.erase boot } := rfl

theorem revokeAuthority_comm (a : RegistryAuthority) (boot boot' : WorkerBootId) :
    Registry.revokeAuthority (Registry.revokeAuthority a boot) boot' =
      Registry.revokeAuthority (Registry.revokeAuthority a boot') boot := by
  by_cases hb : boot = boot'
  · rw [hb]
  have howner : ∀ b b' : WorkerBootId, b ≠ b' → (a.boot_worker.erase b).getD b' {} = a.boot_worker.getD b' {} := by
    intro b b' hne
    rw [Std.ExtTreeMap.getD_erase, if_neg (by simpa using hne)]
  have hlive : (a.live_boots.erase boot).erase boot' = (a.live_boots.erase boot').erase boot := by
    refine Std.ExtTreeSet.ext_mem fun b => ?_
    simp only [Std.ExtTreeSet.mem_erase]
    tauto
  have hworker : (a.boot_worker.erase boot).erase boot' = (a.boot_worker.erase boot').erase boot := by
    refine Std.ExtTreeMap.ext_getElem? fun b => ?_
    simp only [Std.ExtTreeMap.getElem?_erase]
    split_ifs <;> rfl
  simp only [revokeAuthority_eq, boot_owner, howner _ _ hb, howner _ _ (Ne.symm hb), hlive, hworker, vacated_comm _ (a.boot_worker.getD boot {})]

end RegistryAuthority

namespace Registry

variable {r : Registry} {boot boot' : WorkerBootId}

/-! ## Two walks -/

theorem expireLeaseOf_authority (r : Registry) (a : RegistryAuthority) (inst : ServiceInstance) :
    ({ r with authority := a } : Registry).expireLeaseOf inst = { r.expireLeaseOf inst with authority := a } := by
  unfold expireLeaseOf
  split_ifs
  · rcases r.leases[inst.lease]? with _ | lease
    · rfl
    · dsimp only
      split_ifs <;> rfl
  · rfl

/-- A walk neither reads nor writes the authority state. -/
theorem walk_authority_with (scan : List ServiceInstanceId) (r : Registry) (a : RegistryAuthority) :
    scan.foldl (revokeInstance boot) { r with authority := a } = { scan.foldl (revokeInstance boot) r with authority := a } := by
  have hround : ∀ (s : Registry) (id : ServiceInstanceId),
      revokeInstance boot { s with authority := a } id = { revokeInstance boot s id with authority := a } := by
    intro s id
    unfold revokeInstance
    rcases s.instances[id]? with _ | inst
    · rfl
    · dsimp only
      split_ifs
      · rw [expireLeaseOf_authority]
      · rfl
  induction scan generalizing r with
  | nil => rfl
  | cons id scan ih => rw [List.foldl_cons, hround, ih, List.foldl_cons]

theorem walk_comm (scan scan' : List ServiceInstanceId) (r : Registry) :
    scan'.foldl (revokeInstance boot') (scan.foldl (revokeInstance boot) r) =
      scan.foldl (revokeInstance boot) (scan'.foldl (revokeInstance boot') r) := by
  have hround : ∀ (s : Registry) (id : ServiceInstanceId), scan'.foldl (revokeInstance boot') (revokeInstance boot s id) =
      revokeInstance boot (scan'.foldl (revokeInstance boot') s) id := by
    intro s id
    induction scan' generalizing s with
    | nil => rfl
    | cons id' scan' ih => rw [List.foldl_cons, revokeInstance_comm, ih, List.foldl_cons]
  induction scan generalizing r with
  | nil => rfl
  | cons id scan ih => rw [List.foldl_cons, ih, hround, List.foldl_cons]

/-! ## Two deaths -/

/-- A death ends no instance's record. -/
theorem died_keys (r : Registry) (boot : WorkerBootId) : (r.mark_worker_died boot).instances.keys.Perm r.instances.keys := by
  refine (List.perm_ext_iff_of_nodup Std.ExtTreeMap.nodup_keys Std.ExtTreeMap.nodup_keys).2 fun k => ?_
  simp only [Std.ExtTreeMap.mem_keys, Std.ExtTreeMap.mem_iff_isSome_getElem?, mark_worker_died, revoke_instances,
    Option.isSome_map]

/-- The death of a live boot, as a walk over the instances that were there before. -/
theorem died_eq {scan : List ServiceInstanceId} (hscan : scan.Perm r.instances.keys) (hlive : r.authority.is_boot_live boot = true) :
    r.mark_worker_died boot =
      { scan.foldl (revokeInstance boot) r with authority := revokeAuthority r.authority boot } := by
  rw [← revokeInOrder_eq hscan, revokeInOrder, if_pos hlive, walk_authority_with]

theorem mark_worker_died_comm (r : Registry) (boot boot' : WorkerBootId) :
    (r.mark_worker_died boot).mark_worker_died boot' = (r.mark_worker_died boot').mark_worker_died boot := by
  have hdead : ∀ {s : Registry} {b : WorkerBootId}, s.authority.is_boot_live b = false → s.mark_worker_died b = s := by
    intro s b hb
    rw [mark_worker_died, revoke_boot_internal, if_neg (by simp [hb])]
  have hstays : ∀ (s : Registry) (b b' : WorkerBootId), b' ≠ b →
      (s.mark_worker_died b).authority.is_boot_live b' = s.authority.is_boot_live b' := by
    intro s b b' hne
    rw [Bool.eq_iff_iff, mark_worker_died, revoke_is_boot_live]
    exact and_iff_right hne
  by_cases hb : boot = boot'
  · rw [hb]
  by_cases hlive : r.authority.is_boot_live boot = true
  · by_cases hlive' : r.authority.is_boot_live boot' = true
    · -- both walks go over the same instances
      have hkeys : ∀ b : WorkerBootId, r.instances.keys.Perm (r.mark_worker_died b).instances.keys :=
        fun b => (r.died_keys b).symm
      rw [died_eq (hkeys boot) (by rw [hstays _ _ _ (Ne.symm hb), hlive']), died_eq (hkeys boot') (by rw [hstays _ _ _ hb, hlive]),
        died_eq (.refl _) hlive, died_eq (.refl _) hlive']
      simp only [walk_authority_with]
      rw [walk_comm, RegistryAuthority.revokeAuthority_comm]
    · rw [Bool.not_eq_true] at hlive'
      rw [hdead hlive', hdead ((hstays r boot boot' (Ne.symm hb)).trans hlive')]
  · rw [Bool.not_eq_true] at hlive
    rw [hdead hlive, hdead ((hstays r boot' boot hb).trans hlive)]

end Registry

/-! ## Connections -/

namespace Coordinator

variable {c : Coordinator}

/-- `close` where the walk of the death goes in the given order. -/
def closeInOrder (c : Coordinator) (scan : List ServiceInstanceId) (conn : ℕ) : Coordinator :=
  let s := c.sessions conn
  { c with
    registry := if s.has_worker then Registry.revokeInOrder scan c.registry s.boot else c.registry
    sessions := Function.update c.sessions conn { s with closed := true } }

theorem closeInOrder_eq {scan : List ServiceInstanceId} (hscan : scan.Perm c.registry.instances.keys) (conn : ℕ) :
    c.closeInOrder scan conn = c.close conn := by
  rw [closeInOrder, close, Registry.revokeInOrder_eq hscan]

theorem close_keys (c : Coordinator) (conn : ℕ) : (c.close conn).registry.instances.keys.Perm c.registry.instances.keys := by
  unfold close
  dsimp only
  split_ifs
  · exact Registry.died_keys _ _
  · exact .refl _

theorem close_comm (c : Coordinator) (conn conn' : ℕ) : (c.close conn).close conn' = (c.close conn').close conn := by
  by_cases hc : conn = conn'
  · rw [hc]
  have hregistry : ((c.close conn).close conn').registry = ((c.close conn').close conn).registry := by
    simp only [close, Function.update_of_ne hc, Function.update_of_ne (Ne.symm hc)]
    split_ifs
    · exact Registry.mark_worker_died_comm _ _ _
    all_goals rfl
  have hsessions : ((c.close conn).close conn').sessions = ((c.close conn').close conn).sessions := by
    simp only [close, Function.update_of_ne hc, Function.update_of_ne (Ne.symm hc)]
    exact Function.update_comm hc _ _ _
  rcases h : (c.close conn).close conn' with ⟨reg, epoch, sessions⟩
  rcases h' : (c.close conn').close conn with ⟨reg', epoch', sessions'⟩
  rw [h, h'] at hregistry hsessions
  have hepoch : epoch = epoch' := (congrArg Coordinator.epoch h).symm.trans (congrArg Coordinator.epoch h')
  simp only at hregistry hsessions
  rw [hregistry, hsessions, hepoch]

/-- Closings with walks in any order are closings. -/
theorem closings_eq {closings : List (ℕ × List ServiceInstanceId)}
    (hscan : ∀ x ∈ closings, x.2.Perm c.registry.instances.keys) :
    closings.foldl (fun c x => c.closeInOrder x.2 x.1) c = (closings.map (·.1)).foldl close c := by
  induction closings generalizing c with
  | nil => rfl
  | cons x closings ih =>
    rw [List.forall_mem_cons] at hscan
    rw [List.foldl_cons, List.map_cons, List.foldl_cons, closeInOrder_eq hscan.1]
    exact ih fun y hy => (hscan.2 y hy).trans (c.close_keys x.1).symm

/-- Whatever the order in which connections close, and whatever the order in which each
walk of a death takes the instances, the coordinator ends in the same state. -/
theorem closings_any_order {closings closings' : List (ℕ × List ServiceInstanceId)}
    (hperm : (closings.map (·.1)).Perm (closings'.map (·.1)))
    (hscan : ∀ x ∈ closings, x.2.Perm c.registry.instances.keys)
    (hscan' : ∀ x ∈ closings', x.2.Perm c.registry.instances.keys) :
    closings.foldl (fun c x => c.closeInOrder x.2 x.1) c = closings'.foldl (fun c x => c.closeInOrder x.2 x.1) c := by
  rw [closings_eq hscan, closings_eq hscan']
  exact hperm.foldl_eq' (fun conn _ conn' _ c => c.close_comm conn conn') c

/-- Two workers that are connected, each with an instance of service 3. -/
def served : Coordinator where
  registry := Sample.registry.after [.adopt_worker ⟨2⟩,
    .register_instance { Sample.incarnation 6 2 with boot := ⟨102⟩ } { epoch := ⟨1⟩, boot := ⟨102⟩ }]
  epoch := ⟨1⟩
  sessions conn := { worker := ⟨.ofNat (conn + 1)⟩, boot := ⟨.ofNat (conn + 101)⟩, has_worker := conn < 2 }

theorem closings_any_order_served :
    [(0, [⟨5⟩, ⟨6⟩]), (1, [⟨6⟩, ⟨5⟩])].foldl (fun c x => c.closeInOrder x.2 x.1) served =
      [(1, [⟨5⟩, ⟨6⟩]), (0, [⟨5⟩, ⟨6⟩])].foldl (fun c x => c.closeInOrder x.2 x.1) served :=
  closings_any_order (by decide) (by decide +kernel) (by decide +kernel)

end Coordinator

end RuntimeRegistry
