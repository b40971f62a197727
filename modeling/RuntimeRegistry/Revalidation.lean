import RuntimeRegistry.Changes
import RuntimeRegistry.Loading
/-!
# Nothing is trusted after recovery

What `load_from` leaves has no live boot, and every observation of a process is
set back to be made again. An instance of the image whose boot has been drawn
before stays unranked in every run from there, whatever is updated, until a
registration puts an instance of another boot in its place.
-/
open Lib

namespace RuntimeRegistry

/-- The transports whose reachability is observed from a live process. -/
def EndpointDescriptor.Observed (ep : EndpointDescriptor) : Prop :=
  ep.transport = TransportKind.TCP ∨ ep.transport = TransportKind.IN_PROCESS ∨ ep.transport = TransportKind.LOCAL_IPC

namespace Registry

variable {r t u : Registry} {data : List UInt8}

/-- Nothing in the registry counts as observed. -/
structure Untrusted (t : Registry) : Prop where
  boots : ∀ b, t.authority.is_boot_live b = false
  leases : ∀ (k : LeaseId) lease, t.leases[k]? = some lease → lease.state ≠ LeaseState.ACTIVE
  instances : ∀ (k : ServiceInstanceId) inst, t.instances[k]? = some inst →
    inst.lifecycle ≠ Lifecycle.AVAILABLE ∧ inst.lifecycle ≠ Lifecycle.DEGRADED
  endpoints : ∀ (k : EndpointId) ep, t.endpoints[k]? = some ep → ep.Observed → ep.reachability ≠ Reachability.REACHABLE
  capabilities : ∀ (k : CapabilityId) cap, t.capabilities[k]? = some cap → cap.provenance.is_physical = true →
    cap.freshness ≠ Freshness.CURRENT
  unranked : ∀ scan q, scan.Perm t.instances.keys → (t.query scan q).ranked = []

/-! ## Revalidation -/

theorem revalidateInstance_boot (inst : ServiceInstance) : (revalidateInstance inst).boot = inst.boot := by
  unfold revalidateInstance
  split_ifs <;> rfl

theorem revalidateInstance_lifecycle (inst : ServiceInstance) :
    (revalidateInstance inst).lifecycle ≠ Lifecycle.AVAILABLE ∧ (revalidateInstance inst).lifecycle ≠ Lifecycle.DEGRADED := by
  unfold revalidateInstance
  split_ifs <;> simp_all

theorem revalidateEndpoint_reachability {ep : EndpointDescriptor} (h : (revalidateEndpoint ep).Observed) :
    (revalidateEndpoint ep).reachability ≠ Reachability.REACHABLE := by
  unfold revalidateEndpoint at h ⊢
  split_ifs at h ⊢ <;> simp_all [EndpointDescriptor.Observed]

theorem revalidateCapability_freshness {cap : CapabilityDescriptor}
    (h : (revalidateCapability cap).provenance.is_physical = true) :
    (revalidateCapability cap).freshness ≠ Freshness.CURRENT := by
  unfold revalidateCapability at h ⊢
  split_ifs at h ⊢ <;> simp_all

theorem revalidateLease_state (lease : LeaseDescriptor) : (revalidateLease lease).state ≠ LeaseState.ACTIVE := by
  unfold revalidateLease
  split_ifs <;> simp_all

/-- What a mapped table stores was stored before it was mapped. -/
theorem stored_map {tag : IdTag} {ρ : Type} {f : ρ → ρ} {m : Map tag ρ} {k : Id tag} {y : ρ}
    (h : (m.map fun _ => f)[k]? = some y) : ∃ x, m[k]? = some x ∧ y = f x := by
  rw [Std.ExtTreeMap.getElem?_map, Option.map_eq_some_iff] at h
  obtain ⟨x, hx, hy⟩ := h
  exact ⟨x, hx, hy.symm⟩

/-- No instance is ranked if no boot is live. -/
theorem query_unranked (hkey : wellKeyed.Holds t) (hdead : ∀ b, t.authority.is_boot_live b = false)
    {scan : List ServiceInstanceId} (hscan : scan.Perm t.instances.keys) (q : RegistryQuery) :
    (t.query scan q).ranked = [] := by
  refine List.eq_nil_iff_forall_not_mem.2 fun cs hcs => ?_
  obtain ⟨inst, svc, _, hp⟩ := (mem_rankedIds hkey hscan).1 (List.mem_map_of_mem hcs)
  have hlive := hp.accepted.live
  rw [hdead] at hlive
  cases hlive

theorem recovered_untrusted (hkey : wellKeyed.Holds r.recovered) : r.recovered.Untrusted := by
  obtain ⟨_, _, _, _, _, hw⟩ := r.recovered_writes
  have hauth : r.recovered.authority = counters r.authority := by rw [hw]
  have hi : r.recovered.instances = r.instances.map fun _ => revalidateInstance := by rw [hw]
  have he : r.recovered.endpoints = r.endpoints.map fun _ => revalidateEndpoint := by rw [hw]
  have hc : r.recovered.capabilities = r.capabilities.map fun _ => revalidateCapability := by rw [hw]
  have hl : r.recovered.leases = r.leases.map fun _ => revalidateLease := by rw [hw]
  have hdead : ∀ b, r.recovered.authority.is_boot_live b = false := by
    intro b
    rw [hauth]
    simp [RegistryAuthority.is_boot_live, counters]
  refine ⟨hdead, ?_, ?_, ?_, ?_, fun scan q hscan => query_unranked hkey hdead hscan q⟩
  · intro k lease h
    rw [hl] at h
    obtain ⟨x, _, rfl⟩ := stored_map h
    exact revalidateLease_state x
  · intro k inst h
    rw [hi] at h
    obtain ⟨x, _, rfl⟩ := stored_map h
    exact revalidateInstance_lifecycle x
  · intro k ep h hobs
    rw [he] at h
    obtain ⟨x, _, rfl⟩ := stored_map h
    exact revalidateEndpoint_reachability hobs
  · intro k cap h hphys
    rw [hc] at h
    obtain ⟨x, _, rfl⟩ := stored_map h
    exact revalidateCapability_freshness hphys

/-! ## The instances of the image -/

/-- The call stores an instance of another boot under `k`: a registration does,
also the one that `supersede` makes. -/
def Reregisters (r : Registry) (e : Event) (k : ServiceInstanceId) (boot : WorkerBootId) : Prop :=
  ∃ inst, e.op.newInstance = some inst ∧ inst.boot ≠ boot ∧ r.assignedId inst = k ∧
    (r.exec e.scan e.op).2.instances[k]? =
      some ((r.exec e.scan e.op).2.reclassify_lifecycle { inst with instance_id := k })

/-- A call that stores no instance of another boot under `k` keeps the boot of
what is stored there. -/
theorem step_boot {e : Event} {k : ServiceInstanceId} {b : WorkerBootId} (he : e.noLoad) (hno : ¬ r.Reregisters e k b)
    (h : ∀ inst, r.instances[k]? = some inst → inst.boot = b) :
    ∀ inst, (r.exec e.scan e.op).2.instances[k]? = some inst → inst.boot = b := by
  intro inst hinst
  -- every change but a registration writes over the stored record and keeps its boot
  have hover : ∀ old, r.instances[k]? = some old → ∀ new : ServiceInstance,
      (r.exec e.scan e.op).2.instances[k]? = some new → new.boot = old.boot → inst.boot = b := by
    intro old hold new hnew hboot
    obtain rfl : inst = new := Option.some.inj (hinst.symm.trans hnew)
    rw [hboot, h old hold]
  cases exec_change r e.scan e.op he.class_ne k with
  | kept hk => exact h inst (hk ▸ hinst)
  | updated write old hop _ hold hk =>
    have hwrite : (write old).boot = old.boot := by
      cases hc : e.op <;> rw [hc] at hop <;> simp only [Op.updates, Option.some.injEq, Prod.mk.injEq, reduceCtorEq] at hop
      all_goals
        obtain ⟨_, rfl⟩ := hop
        rfl
    exact hover old hold _ hk hwrite
  | refreshed old _ hold hk => exact hover old hold _ hk rfl
  | stored new hop hid _ hk =>
    by_contra hne
    obtain rfl := Option.some.inj (hinst.symm.trans hk)
    exact hno ⟨new, hop, hne, hid.symm, hk⟩
  | superseded old hold _ hk => exact hover old hold _ hk rfl
  | retired _ old _ _ hold hk => exact hover old hold _ hk rfl
  | dead old _ _ hold hk => exact hover old hold _ hk rfl
  | revalidated old _ hold hk => exact hover old hold _ hk (revalidateInstance_boot old)

/-- In a run that stores no instance of another boot under `k`, what is stored there
keeps its boot. -/
theorem run_boot {es : List Event} {k : ServiceInstanceId} {b : WorkerBootId}
    (hr : Run (Guarded Step fun s e => e.noLoad ∧ ¬ s.Reregisters e k b) t es u)
    (h : ∀ inst, t.instances[k]? = some inst → inst.boot = b) : ∀ inst, u.instances[k]? = some inst → inst.boot = b := by
  refine hr.inv (fun s => ∀ inst, s.instances[k]? = some inst → inst.boot = b) ?_ h
  intro s e s' hs hst
  rw [hst.1.state]
  exact step_boot hst.2.1 hst.2.2 hs

/-- An instance of a boot that is not above the counter and not live is not ranked
before an instance of another boot takes its place. -/
theorem dead_unranked {es : List Event} {k : ServiceInstanceId} {inst : ServiceInstance} (hkey : wellKeyed.Holds t)
    (hdead : ∀ b, t.authority.is_boot_live b = false) (hi : t.instances[k]? = some inst)
    (hle : inst.boot.value ≤ t.next_boot)
    (hr : Run (Guarded Step fun s e => e.noLoad ∧ ¬ s.Reregisters e k inst.boot) t es u)
    (hroom : t.next_boot.toNat + adoptions es < 2 ^ 64) {scan : List ServiceInstanceId}
    (hscan : scan.Perm u.instances.keys) (q : RegistryQuery) : k ∉ (u.query scan q).rankedIds := by
  have hrun : Run (Guarded Step fun _ e => e.noLoad) t es u := hr.mono fun _ _ _ hs => ⟨hs.1, hs.2.1⟩
  have hkey : wellKeyed.Holds u := hrun.inv wellKeyed.Holds (fun _ _ _ hs hst => wellKeyed_step hs hst.1) hkey
  have hadv := (run_advances hrun hroom).1
  have hnot : inst.boot.value.toNat ∉ t.tokens.live := by
    rintro ⟨b, hb, _⟩
    rw [hdead b] at hb
    cases hb
  have hboot : ∀ inst', u.instances[k]? = some inst' → inst'.boot = inst.boot := by
    refine run_boot hr fun inst' hi' => ?_
    rw [Option.some.inj (hi'.symm.trans hi)]
  intro hranked
  obtain ⟨inst', svc, hc, hp⟩ := (mem_rankedIds hkey hscan).1 hranked
  have hlive := hp.accepted.live
  rw [hboot inst' hc.stored] at hlive
  exact hadv.dead (UInt64.le_iff_toNat_le.1 hle) hnot ⟨inst.boot, hlive, rfl⟩

/-- After an image was accepted nothing is trusted, and an instance of the image
whose boot is not above the counter of the image is not ranked in any run without
`load_from` in which `next_boot` does not wrap, until a registration stores an
instance of another boot under its id. -/
theorem load_from_untrusted (h : (r.load_from data).Returns) :
    (r.load_from data).2.Untrusted ∧
    ∀ k inst, (r.load_from data).2.instances[k]? = some inst → inst.boot.value ≤ (r.load_from data).2.next_boot →
      ∀ es u, Run (Guarded Step fun s e => e.noLoad ∧ ¬ s.Reregisters e k inst.boot) (r.load_from data).2 es u →
        (r.load_from data).2.next_boot.toNat + adoptions es < 2 ^ 64 →
        ∀ scan q, scan.Perm u.instances.keys → k ∉ (u.query scan q).rankedIds := by
  obtain ⟨ha, hc⟩ := (load_from_returns_iff r data).1 h
  have hkey := (imageRegistry_readable ha).recovered.keyed
  have hall := recovered_untrusted hkey
  rw [load_from_accepted ha hc r]
  refine ⟨hall, ?_⟩
  intro k inst hi hle es u hr hroom scan q hscan
  exact dead_unranked hkey hall.boots hi hle hr hroom hscan q

theorem load_from_untrusted_sample :
    (fresh.load_from Sample.registry.serialize).2.Untrusted ∧
    ∀ k inst, (fresh.load_from Sample.registry.serialize).2.instances[k]? = some inst →
      inst.boot.value ≤ (fresh.load_from Sample.registry.serialize).2.next_boot →
      ∀ es u, Run (Guarded Step fun s e => e.noLoad ∧ ¬ s.Reregisters e k inst.boot)
          (fresh.load_from Sample.registry.serialize).2 es u →
        (fresh.load_from Sample.registry.serialize).2.next_boot.toNat + adoptions es < 2 ^ 64 →
        ∀ scan q, scan.Perm u.instances.keys → k ∉ (u.query scan q).rankedIds :=
  load_from_untrusted (by rw [load_from_serialize_restore sample_readable]; exact Outcome.returns_ok _ _)

end Registry

end RuntimeRegistry
