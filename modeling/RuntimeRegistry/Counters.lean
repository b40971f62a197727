import RuntimeRegistry.References
/-!
# The generation counters

The authority state keeps a counter for each domain of records. A registration raises
the counter of its domain to the generation that it stores, and a lease takes its
generation from its counter. No line of the program raises the counter of the
instances, and the counter of the leases starts again at 2^64.
-/
open Lib Lib.Table

namespace RuntimeRegistry

/-- The domains of records that have a counter. -/
inductive CounterKind
  | service | inst | runtime | endpoint | protocol | backend | device | capability | lease | node
deriving DecidableEq

/-- The counter of the domain. -/
def CounterKind.counter (a : RegistryAuthority) : CounterKind → ℕ
  | .service => a.service_gen.value.toNat
  | .inst => a.instance_gen.value.toNat
  | .runtime => a.runtime_gen.value.toNat
  | .endpoint => a.endpoint_gen.value.toNat
  | .protocol => a.protocol_gen.value.toNat
  | .backend => a.backend_gen.value.toNat
  | .device => a.device_gen.value.toNat
  | .capability => a.capability_gen.value.toNat
  | .lease => a.lease_gen.value.toNat
  | .node => a.node_gen.value.toNat

/-- A stored record of the domain has the generation. -/
def CounterKind.Stored (r : Registry) (g : ℕ) : CounterKind → Prop
  | .service => Shows (·.generation.value.toNat) r.services g
  | .inst => Shows (·.instance_generation.value.toNat) r.instances g
  | .runtime => Shows (·.generation.value.toNat) r.runtimes g ∨ Shows (·.generation.value.toNat) r.runtime_instances g
  | .endpoint => Shows (·.generation.value.toNat) r.endpoints g
  | .protocol => Shows (·.generation.value.toNat) r.protocols g
  | .backend => Shows (·.generation.value.toNat) r.backends g
  | .device => Shows (·.generation.value.toNat) r.devices g
  | .capability => Shows (·.generation.value.toNat) r.capabilities g
  | .lease => Shows (·.generation.value.toNat) r.leases g
  | .node => Shows (·.generation.value.toNat) r.nodes g

namespace Registry

open CounterKind (counter Stored)

variable {r s t : Registry} {env : AuthorityEnvelope} {scan : List ServiceInstanceId} {op : Op} {e : Event}

/-- No stored generation lies above the counter of its domain. -/
def Dominated (r : Registry) : Prop := ∀ (K : CounterKind) g, K.Stored r g → g ≤ K.counter r.authority

/-- Stored leases have different generations. -/
def LeasesDistinct (r : Registry) : Prop :=
  ∀ (l l' : LeaseId) (x x' : LeaseDescriptor), r.leases[l]? = some x → r.leases[l']? = some x' →
    x.generation = x'.generation → l = l'

/-- No counter is lower. -/
def CountersRise (r t : Registry) : Prop := ∀ K : CounterKind, K.counter r.authority ≤ K.counter t.authority

/-! ## Raising -/

/-- No counter is lower, and a generation is new only up to the counter of its domain. -/
structure Raises (r t : Registry) : Prop where
  counters : CountersRise r t
  stored : ∀ (K : CounterKind) g, K.Stored t g → K.Stored r g ∨ g ≤ K.counter t.authority

theorem Raises.refl (r : Registry) : Raises r r := ⟨fun _ => le_rfl, fun _ _ h => .inl h⟩

theorem Raises.trans (h : Raises r s) (h' : Raises s t) : Raises r t where
  counters K := (h.counters K).trans (h'.counters K)
  stored K g hg := (h'.stored K g hg).elim (fun hs => (h.stored K g hs).imp_right fun hle => hle.trans (h'.counters K)) .inr

theorem Dominated.raised (h : r.Dominated) (hr : Raises r t) : t.Dominated :=
  fun K g hg => (hr.stored K g hg).elim (fun hs => (h K g hs).trans (hr.counters K)) id

/-- A write that touches neither counters nor records. -/
theorem Raises.write (hc : ∀ K : CounterKind, K.counter t.authority = K.counter r.authority)
    (hs : ∀ (K : CounterKind) g, K.Stored t g → K.Stored r g) : Raises r t :=
  ⟨fun K => (hc K).ge, fun K g hg => .inl (hs K g hg)⟩

theorem Raises.rebuild_indexes (r : Registry) : Raises r r.rebuild_indexes := by
  obtain ⟨_, _, _, _, h⟩ := rebuild_indexes_writes r
  rw [h]
  exact .write (fun K => by cases K <;> rfl) fun K g hg => by cases K <;> exact hg

theorem le_raiseTo {gen : GenTag} (counter g : Gen gen) : counter ≤ raiseTo counter g := by
  unfold raiseTo
  split_ifs with h
  · exact h.le
  · exact le_rfl

theorem raiseTo_ge {gen : GenTag} (counter g : Gen gen) : g ≤ raiseTo counter g := by
  unfold raiseTo
  split_ifs with h
  · exact le_rfl
  · exact not_lt.1 h

/-! ## Registrations of descriptors -/

section
variable {tag : IdTag} {gen : GenTag} {ρ : Type}

/-- What the domain stores and raises is of the kind `K`. -/
structure Domain.Counts (D : Domain tag gen ρ) (K : CounterKind) : Prop where
  raise_ge : ∀ g a, g.value.toNat ≤ K.counter (D.raise g a)
  raise_le : ∀ g a (K' : CounterKind), K'.counter a ≤ K'.counter (D.raise g a)
  replace : ∀ current x s (K' : CounterKind) g, K'.Stored (D.replace current x s) g →
    K'.Stored s g ∨ K' = K ∧ g = (D.generation x).value.toNat
  insert : ∀ x s (K' : CounterKind) g, K'.Stored (D.insert x s) g → K'.Stored s g ∨ K' = K ∧ g = (D.generation x).value.toNat
  replace_authority : ∀ current x s, (D.replace current x s).authority = s.authority
  insert_authority : ∀ x s, (D.insert x s).authority = s.authority
  finish : ∀ s, Raises s (D.finish s)

/-- The record is stored and the counter raised to its generation. -/
theorem Domain.Counts.commit {D : Domain tag gen ρ} {K : CounterKind} (hD : D.Counts K) {x : ρ}
    (ha : s.authority = r.authority)
    (hs : ∀ (K' : CounterKind) g, K'.Stored s g → K'.Stored r g ∨ K' = K ∧ g = (D.generation x).value.toNat) :
    Raises r (D.commit x s).2 := by
  have hraised : Raises r { s with authority := D.raise (D.generation x) s.authority }.commit_registry_generation := by
    have hcounter : ∀ K' : CounterKind, K'.counter { s with authority := D.raise (D.generation x) s.authority
        }.commit_registry_generation.authority = K'.counter (D.raise (D.generation x) s.authority) := by
      intro K'
      cases K' <;> rfl
    refine ⟨fun K' => ?_, fun K' g hg => ?_⟩
    · rw [hcounter, ha]
      exact hD.raise_le _ _ K'
    · have hstored : K'.Stored s g := by cases K' <;> exact hg
      rcases hs K' g hstored with h | ⟨rfl, rfl⟩
      · exact .inl h
      · rw [hcounter]
        exact .inr (hD.raise_ge _ _)
  exact hraised.trans (hD.finish _)

theorem Domain.Counts.registerRecord {D : Domain tag gen ρ} {K : CounterKind} (hD : D.Counts K) (x : ρ) :
    Raises r (registerRecord D r x env).2 := by
  refine registerRecord_rel (R := Raises) (fun s _ _ => ?_) (fun _ _ _ => .trans) (fun current x s => ?_) fun x s => ?_
  · exact .write (fun K => by cases K <;> rfl) fun K g hg => by cases K <;> exact hg
  · exact hD.commit (hD.replace_authority current x s) (hD.replace current x s)
  · exact hD.commit (hD.insert_authority x s) (hD.insert x s)

end

section
variable {tag : IdTag} {gen : GenTag} {ρ : Type}

/-- A domain that stores its records in the one table of its kind. -/
theorem Domain.Counts.of_table {D : Domain tag gen ρ} {K : CounterKind}
    (hreplace : ∀ current x s (K' : CounterKind) g, K'.Stored (D.replace current x s) g → K'.Stored (D.insert x s) g)
    (hreplaced : ∀ current x s, (D.replace current x s).authority = s.authority)
    (hinserted : ∀ x s, (D.insert x s).authority = s.authority)
    (hge : ∀ g a, g.value.toNat ≤ K.counter (D.raise g a)) (hle : ∀ g a (K' : CounterKind), K'.counter a ≤ K'.counter (D.raise g a))
    (hown : ∀ x s g, K.Stored (D.insert x s) g → K.Stored s g ∨ g = (D.generation x).value.toNat)
    (hother : ∀ x s (K' : CounterKind) g, K' ≠ K → K'.Stored (D.insert x s) g → K'.Stored s g)
    (hfinish : ∀ s, Raises s (D.finish s)) : D.Counts K := by
  have hinsert : ∀ x s (K' : CounterKind) g, K'.Stored (D.insert x s) g →
      K'.Stored s g ∨ K' = K ∧ g = (D.generation x).value.toNat := by
    intro x s K' g h
    by_cases hK : K' = K
    · subst hK
      exact (hown x s g h).imp_right fun hg => ⟨rfl, hg⟩
    · exact .inl (hother x s K' g hK h)
  exact ⟨hge, hle, fun current x s K' g h => hinsert x s K' g (hreplace current x s K' g h), hinsert,
    hreplaced, hinserted, hfinish⟩

end

theorem services_counts : services_.Counts .service := by
  refine .of_table (fun _ x s K g h => ?_) (fun _ _ _ => rfl) (fun _ _ => rfl) (fun _ _ => raiseTo_ge _ _) (fun g a K => ?_)
    (fun _ _ _ h => h.insert) (fun x s K g hK h => ?_) Raises.rebuild_indexes
  · cases K <;> exact h
  · cases K <;> first | exact le_rfl | exact le_raiseTo _ _
  · cases K <;> first | exact h | contradiction

theorem runtimes_counts : runtimes_.Counts .runtime where
  raise_ge _ _ := raiseTo_ge _ _
  raise_le _ _ K := by
    cases K
    case runtime => exact le_raiseTo _ _
    all_goals exact le_rfl
  replace _ x s K g h := by
    cases K
    case runtime =>
      -- the replacement goes into the second table only
      rcases h with h | h
      · exact .inl (.inl h)
      · exact h.insert.imp .inr fun hg => ⟨rfl, hg⟩
    all_goals exact .inl h
  insert x s K g h := by
    cases K
    case runtime =>
      rcases h with h | h
      · exact h.insert.imp .inl fun hg => ⟨rfl, hg⟩
      · exact h.insert.imp .inr fun hg => ⟨rfl, hg⟩
    all_goals exact .inl h
  replace_authority _ _ _ := rfl
  insert_authority _ _ := rfl
  finish := Raises.refl

theorem protocols_counts : protocols_.Counts .protocol := by
  refine .of_table (fun _ x s K g h => ?_) (fun _ _ _ => rfl) (fun _ _ => rfl) (fun _ _ => raiseTo_ge _ _) (fun g a K => ?_)
    (fun _ _ _ h => h.insert) (fun x s K g hK h => ?_) Raises.refl
  · cases K <;> exact h
  · cases K <;> first | exact le_rfl | exact le_raiseTo _ _
  · cases K <;> first | exact h | contradiction

theorem endpoints_counts : endpoints_.Counts .endpoint := by
  refine .of_table (fun _ x s K g h => ?_) (fun _ _ _ => rfl) (fun _ _ => rfl) (fun _ _ => raiseTo_ge _ _) (fun g a K => ?_)
    (fun _ _ _ h => h.insert) (fun x s K g hK h => ?_) Raises.refl
  · cases K <;> exact h
  · cases K <;> first | exact le_rfl | exact le_raiseTo _ _
  · cases K <;> first | exact h | contradiction

theorem capabilities_counts : capabilities_.Counts .capability := by
  refine .of_table (fun _ x s K g h => ?_) (fun _ _ _ => rfl) (fun _ _ => rfl) (fun _ _ => raiseTo_ge _ _) (fun g a K => ?_)
    (fun _ _ _ h => h.insert) (fun x s K g hK h => ?_) Raises.refl
  · cases K <;> exact h
  · cases K <;> first | exact le_rfl | exact le_raiseTo _ _
  · cases K <;> first | exact h | contradiction

theorem backends_counts : backends_.Counts .backend := by
  refine .of_table (fun _ x s K g h => ?_) (fun _ _ _ => rfl) (fun _ _ => rfl) (fun _ _ => raiseTo_ge _ _) (fun g a K => ?_)
    (fun _ _ _ h => h.insert) (fun x s K g hK h => ?_) Raises.refl
  · cases K <;> exact h
  · cases K <;> first | exact le_rfl | exact le_raiseTo _ _
  · cases K <;> first | exact h | contradiction

theorem devices_counts : devices_.Counts .device := by
  refine .of_table (fun _ x s K g h => ?_) (fun _ _ _ => rfl) (fun _ _ => rfl) (fun _ _ => raiseTo_ge _ _) (fun g a K => ?_)
    (fun _ _ _ h => h.insert) (fun x s K g hK h => ?_) Raises.refl
  · cases K <;> exact h
  · cases K <;> first | exact le_rfl | exact le_raiseTo _ _
  · cases K <;> first | exact h | contradiction

theorem nodes_counts : nodes_.Counts .node := by
  refine .of_table (fun _ x s K g h => ?_) (fun _ _ _ => rfl) (fun _ _ => rfl) (fun _ _ => raiseTo_ge _ _) (fun g a K => ?_)
    (fun _ _ _ h => h.insert) (fun x s K g hK h => ?_) Raises.refl
  · cases K <;> exact h
  · cases K <;> first | exact le_rfl | exact le_raiseTo _ _
  · cases K <;> first | exact h | contradiction

/-- A registration of a descriptor raises the counter with the generation. -/
theorem descriptor_raises (hc : op.class = .descriptor) : Raises r (r.exec scan op).2 := by
  obtain ⟨_, _, _, D, x, env, h⟩ := exists_registers hc
  rw [h.state]
  cases h
  case service => exact services_counts.registerRecord _
  case runtime => exact runtimes_counts.registerRecord _
  case endpoint => exact endpoints_counts.registerRecord _
  case capability => exact capabilities_counts.registerRecord _
  case backend => exact backends_counts.registerRecord _
  case device => exact devices_counts.registerRecord _
  case protocol => exact protocols_counts.registerRecord _
  case node => exact nodes_counts.registerRecord _

/-! ## The other calls -/

/-- The two agree on the counters. -/
def SameCounters (a b : RegistryAuthority) : Prop := ∀ K : CounterKind, K.counter b = K.counter a

theorem SameCounters.revoke (r : Registry) (boot : WorkerBootId) :
    SameCounters r.authority (r.revoke_boot_internal boot).authority := by
  rw [revoke_authority]
  split_ifs
  · exact fun K => by cases K <;> rfl
  · exact fun _ => rfl

/-- Only registrations of descriptors, `acquire_lease` and `load_from` write counters. -/
theorem exec_counters (himage : op.class ≠ .image) (hdescriptor : op.class ≠ .descriptor)
    (hlease : ∀ lease env, op ≠ .acquire_lease lease env) : SameCounters r.authority (r.exec scan op).2.authority := by
  have hrefl : SameCounters r.authority r.authority := fun _ => rfl
  have hcommit : ∀ {s : Registry}, s.authority = r.authority → SameCounters r.authority s.commit_registry_generation.authority := by
    intro s hs K
    rw [← hs]
    cases K <;> rfl
  have hw := r.exec_writes scan op
  rcases hc : op.class <;> rw [hc] at hw
  case inst =>
    obtain ⟨_, _, _, _, _, _, _, _, _, _, _, _, hw⟩ := hw
    rw [hw]
    exact fun K => by cases K <;> rfl
  case lease =>
    cases op <;> simp only [Op.class, reduceCtorEq] at hc
    case acquire_lease lease env => exact absurd rfl (hlease lease env)
    case renew_lease id env =>
      exact renew_lease_rule (P := fun o => SameCounters r.authority o.2.authority) (fun _ _ => hrefl) (fun _ _ _ => hrefl)
        (fun _ _ _ _ => hrefl) fun _ _ _ _ => hcommit rfl
    case expire_lease id env =>
      exact endLease_rule (P := fun o => SameCounters r.authority o.2.authority) (fun _ _ => hrefl) (fun _ _ => hrefl)
        (fun _ _ _ _ => hcommit rfl) fun _ _ _ _ => hcommit rfl
    case revoke_lease id env =>
      exact endLease_rule (P := fun o => SameCounters r.authority o.2.authority) (fun _ _ => hrefl) (fun _ _ => hrefl)
        (fun _ _ _ _ => hcommit rfl) fun _ _ _ _ => hcommit rfl
    case mark_lease_revalidation_required id =>
      exact mark_lease_revalidation_required_rule (P := fun t => SameCounters r.authority t.authority) hrefl
        fun _ _ _ => hrefl
  case tombstone =>
    cases op <;> simp only [Op.class, reduceCtorEq] at hc
    case create_tombstone tomb env =>
      refine authorized_rule (P := fun o => SameCounters r.authority o.2.authority) (fun _ _ => hrefl) fun _ => ?_
      dsimp only
      split <;> exact hcommit rfl
  case note =>
    cases op <;> simp only [Op.class, reduceCtorEq] at hc
    case invalidate record env =>
      exact authorized_rule (P := fun o => SameCounters r.authority o.2.authority) (fun _ _ => hrefl) fun _ => hcommit rfl
    all_goals exact hrefl
  case incarnation =>
    cases op <;> simp only [Op.class, reduceCtorEq] at hc
    case begin_coordinator_epoch => exact fun K => by cases K <;> rfl
    case adopt_worker worker =>
      refine adopt_worker_rule (P := fun t => SameCounters r.authority t.authority) (fun _ => ?_) fun prev _ _ => ?_
      · exact fun K => by cases K <;> rfl
      · have hrevoke := SameCounters.revoke { r with next_boot := r.next_boot + 1 } prev
        refine fun K => Eq.trans ?_ (hrevoke K)
        cases K <;> rfl
    case mark_worker_died boot => exact .revoke r boot
  case descriptor => exact absurd hc hdescriptor
  case image => exact absurd hc himage

theorem acquire_lease_authority {lease : LeaseDescriptor} (ha : r.Accepts env) : (r.acquire_lease lease env).2.authority =
    { r with authority := { r.authority with lease_gen := r.authority.lease_gen.succ } }.commit_registry_generation.authority := by
  rw [acquire_lease, authorized_accepted ha]
  dsimp only
  split <;> rfl

theorem expiredLease_generation (lease : LeaseDescriptor) : (expiredLease lease).generation = lease.generation := by
  unfold expiredLease
  split_ifs <;> rfl

theorem revalidateLease_generation (lease : LeaseDescriptor) : (revalidateLease lease).generation = lease.generation := by
  unfold revalidateLease
  split_ifs <;> rfl

/-- A lease has its generation from before the call, or the call acquires it. -/
theorem lease_origin (himage : op.class ≠ .image) {l : LeaseId} {x : LeaseDescriptor} (h : (r.exec scan op).2.leases[l]? = some x) :
    (∃ old, r.leases[l]? = some old ∧ x.generation = old.generation) ∨
      ∃ lease env, op = .acquire_lease lease env ∧ r.Accepts env ∧ l = r.assignedLease lease ∧
        x.generation = r.authority.lease_gen.succ := by
  have hx : ∀ {y}, (r.exec scan op).2.leases[l]? = some y → y = x := fun hy => Option.some.inj (hy.symm.trans h)
  cases r.exec_lease_change scan op himage l with
  | kept hk => exact .inl ⟨x, hk.symm.trans h, rfl⟩
  | acquired lease env hop ha hl hk =>
    obtain rfl := hx hk
    exact .inr ⟨lease, env, hop, ha, hl.symm, rfl⟩
  | renewed _ old _ hr hk =>
    obtain rfl := hx hk
    exact .inl ⟨old, hr.stored, rfl⟩
  | expired _ old _ _ hold _ hk | revoked _ old _ _ hold _ hk | marked old _ hold _ hk =>
    obtain rfl := hx hk
    exact .inl ⟨old, hold, rfl⟩
  | dead _ old _ _ hold hk =>
    obtain rfl := hx hk
    exact .inl ⟨old, hold, expiredLease_generation old⟩
  | revalidated old _ hold hk =>
    obtain rfl := hx hk
    exact .inl ⟨old, hold, revalidateLease_generation old⟩

/-- No call but a registration gives an endpoint a generation. -/
theorem endpoint_origin (himage : op.class ≠ .image) (hdescriptor : op.class ≠ .descriptor) {k : EndpointId}
    {x : EndpointDescriptor} (h : (r.exec scan op).2.endpoints[k]? = some x) :
    ∃ old, r.endpoints[k]? = some old ∧ x.generation = old.generation := by
  have hx : ∀ {y}, (r.exec scan op).2.endpoints[k]? = some y → y = x := fun hy => Option.some.inj (hy.symm.trans h)
  cases r.exec_endpoint_change scan op himage k with
  | kept hk => exact ⟨x, hk.symm.trans h, rfl⟩
  | registered _ _ _ hop => exact absurd (by rw [hop]; rfl) hdescriptor
  | claimed inst old ep' _ _ hold hclaimed hk =>
    obtain rfl := hx hk
    exact ⟨old, hold, hclaimed.generation⟩
  | updated rc env old _ hu hk =>
    obtain rfl := hx hk
    exact ⟨old, hu.2.1, rfl⟩
  | released boot old _ _ hold _ hk =>
    obtain rfl := hx hk
    exact ⟨old, hold, rfl⟩
  | revalidated old _ hold hk =>
    obtain rfl := hx hk
    exact ⟨old, hold, revalidateEndpoint_generation old⟩

/-- The domains whose records no call but a registration writes. -/
theorem other_stored (himage : op.class ≠ .image) (hdescriptor : op.class ≠ .descriptor) {K : CounterKind} {g : ℕ}
    (h₁ : K ≠ .inst) (h₂ : K ≠ .endpoint) (h₃ : K ≠ .lease) (h : K.Stored (r.exec scan op).2 g) : K.Stored r g := by
  have hw := r.exec_writes scan op
  rcases hc : op.class <;> rw [hc] at hw
  case inst =>
    obtain ⟨_, _, _, _, _, _, _, _, _, _, _, _, hw⟩ := hw
    rw [hw] at h
    cases K <;> first | exact h | contradiction
  case lease | tombstone =>
    obtain ⟨_, _, _, _, hw, -⟩ := hw
    rw [hw] at h
    cases K <;> first | exact h | contradiction
  case note =>
    obtain ⟨_, _, _, hw, -⟩ := hw
    rw [hw] at h
    cases K <;> exact h
  case incarnation =>
    cases op <;> simp only [Op.class, reduceCtorEq] at hc
    case begin_coordinator_epoch =>
      cases K
      case capability => exact h.map fun cap => by rw [revalidateCapability_generation]
      case inst => exact absurd rfl h₁
      case endpoint => exact absurd rfl h₂
      case lease => exact absurd rfl h₃
      all_goals exact h
    case adopt_worker worker =>
      obtain ⟨_, _, _, _, _, hw⟩ := adopt_worker_writes r worker
      simp only [exec, hw] at h
      cases K <;> first | exact h | contradiction
    case mark_worker_died boot =>
      obtain ⟨_, _, _, _, hw⟩ := revoke_writes r boot
      simp only [exec, mark_worker_died, hw] at h
      cases K <;> first | exact h | contradiction
  case descriptor => exact absurd hc hdescriptor
  case image => exact absurd hc himage

/-- A generation that a call other than a registration of a descriptor shows first is
that of the instance it enrolls or of the lease it acquires. -/
theorem new_generation (hs : Step r e t) (himage : e.op.class ≠ .image) (hdescriptor : e.op.class ≠ .descriptor)
    {K : CounterKind} {g : ℕ} (h : K.Stored t g) : K.Stored r g ∨
      (K = .inst ∧ ∃ inst, r.Enrolls e inst ∧ g = inst.instance_generation.value.toNat) ∨
      (K = .lease ∧ (∃ lease env, e.op = .acquire_lease lease env ∧ r.Accepts env) ∧
        g = r.authority.lease_gen.succ.value.toNat) := by
  have hstate := hs.state
  cases K
  case inst =>
    obtain ⟨k, inst, hi, rfl⟩ := h
    rcases instance_origin hs himage hi with ⟨old, hold, hsame⟩ | ⟨new, henrolls, _, hsame⟩
    · exact .inl ⟨k, old, hold, congrArg (·.value.toNat) hsame.instance_generation.symm⟩
    · exact .inr (.inl ⟨rfl, new, henrolls, congrArg (·.value.toNat) hsame.instance_generation⟩)
  case endpoint =>
    obtain ⟨k, ep, hep, rfl⟩ := h
    rw [hstate] at hep
    obtain ⟨old, hold, hgen⟩ := endpoint_origin himage hdescriptor hep
    exact .inl ⟨k, old, hold, congrArg (·.value.toNat) hgen.symm⟩
  case lease =>
    obtain ⟨l, lease, hl, rfl⟩ := h
    rw [hstate] at hl
    rcases lease_origin himage hl with ⟨old, hold, hgen⟩ | ⟨new, env, hop, ha, _, hgen⟩
    · exact .inl ⟨l, old, hold, congrArg (·.value.toNat) hgen.symm⟩
    · exact .inr (.inr ⟨rfl, ⟨new, env, hop, ha⟩, congrArg (·.value.toNat) hgen⟩)
  all_goals
    rw [hstate] at h
    exact .inl (other_stored himage hdescriptor (by decide) (by decide) (by decide) h)

/-! ## Runs -/

/-- The call enrolls no instance above the counter of the instances, which it leaves as
it is, and acquires no lease where the counter of the leases starts again. -/
structure KeepsCounters (r : Registry) (e : Event) : Prop where
  enrolled : ∀ inst, r.Enrolls e inst → inst.instance_generation ≤ r.authority.instance_gen
  acquired : ∀ lease env, e.op = .acquire_lease lease env → r.Accepts env → r.authority.lease_gen.value.toNat + 1 < 2 ^ 64

theorem acquire_lease_counter (K : CounterKind) (ha : r.Accepts env) (lease : LeaseDescriptor) :
    K.counter (r.acquire_lease lease env).2.authority =
      if K = .lease then r.authority.lease_gen.succ.value.toNat else K.counter r.authority := by
  rw [acquire_lease_authority ha]
  cases K <;> rfl

theorem lease_succ (h : r.authority.lease_gen.value.toNat + 1 < 2 ^ 64) :
    r.authority.lease_gen.succ.value.toNat = r.authority.lease_gen.value.toNat + 1 :=
  (UInt64.toNat_add _ _).trans (Nat.mod_eq_of_lt h)

/-- The counters of a call that is no registration of a descriptor. -/
theorem other_counters (hs : Step r e t) (himage : e.op.class ≠ .image) (hdescriptor : e.op.class ≠ .descriptor)
    (hk : r.KeepsCounters e) : CountersRise r t := by
  intro K
  rw [hs.state]
  by_cases hacquire : ∃ lease env, e.op = .acquire_lease lease env ∧ r.Accepts env
  · obtain ⟨lease, env, hop, ha⟩ := hacquire
    have hcounter := acquire_lease_counter K ha lease
    have hroom := hk.acquired lease env hop ha
    rw [hop]
    simp only [exec, Outcome.map_snd, hcounter]
    split_ifs with hK
    · subst hK
      rw [lease_succ hroom]
      exact Nat.le_succ _
    · exact le_rfl
  · by_cases hlease : ∃ lease env, e.op = .acquire_lease lease env
    · obtain ⟨lease, env, hop⟩ := hlease
      have hrejected : ¬ r.Accepts env := fun ha => hacquire ⟨lease, env, hop, ha⟩
      obtain ⟨error, he⟩ := exec_rejected (show e.op.envelope = some env by rw [hop]; rfl) hrejected e.scan
      rw [he]
    · have hsame : SameCounters r.authority (r.exec e.scan e.op).2.authority :=
        exec_counters himage hdescriptor fun lease env hop => hlease ⟨lease, env, hop⟩
      exact (hsame K).ge

/-- A call that keeps the condition raises the counters with the generations. -/
theorem Raises.step (hs : Step r e t) (himage : e.op.class ≠ .image) (hk : r.KeepsCounters e) : Raises r t := by
  by_cases hdescriptor : e.op.class = .descriptor
  · rw [hs.state]
    exact descriptor_raises hdescriptor
  · have hcounters : CountersRise r t := other_counters hs himage hdescriptor hk
    refine ⟨hcounters, fun K g hg => ?_⟩
    rcases new_generation hs himage hdescriptor hg with h | ⟨rfl, inst, henrolls, rfl⟩ | ⟨rfl, ⟨lease, env, hop, ha⟩, rfl⟩
    · exact .inl h
    · have hle : inst.instance_generation.value.toNat ≤ CounterKind.inst.counter r.authority := hk.enrolled inst henrolls
      exact .inr (hle.trans (hcounters .inst))
    · have hcounter := acquire_lease_counter .lease ha lease
      rw [if_pos rfl] at hcounter
      have hstate := hs.state
      rw [hop] at hstate
      simp only [exec, Outcome.map_snd] at hstate
      rw [hstate, hcounter]
      exact .inr le_rfl

/-- One call other than `load_from` keeps the counters above the generations, and none
falls, if and only if it meets the condition. -/
theorem counters_step_iff (h : r.Dominated) (hs : Step r e t) (himage : e.op.class ≠ .image) :
    t.Dominated ∧ CountersRise r t ↔ r.KeepsCounters e := by
  refine ⟨fun ⟨hdominated, hrise⟩ => ⟨fun inst henrolls => ?_, fun lease env hop ha => ?_⟩, fun hk => ?_⟩
  · have hclass := (newInstance_call henrolls.1).1
    have hshown : CounterKind.inst.Stored t inst.instance_generation.value.toNat :=
      ⟨r.assignedId inst, _, henrolls.stored hs, rfl⟩
    have hle := hdominated .inst _ hshown
    have hsame : SameCounters r.authority t.authority := by
      rw [hs.state]
      refine exec_counters himage (by rw [hclass]; decide) fun lease env hop => ?_
      rw [hop] at hclass
      cases hclass
    rw [hsame .inst] at hle
    exact hle
  · have hrise := hrise .lease
    rw [hs.state, hop] at hrise
    simp only [exec, Outcome.map_snd, acquire_lease_counter .lease ha lease, if_true] at hrise
    by_contra hfull
    have hmax : r.authority.lease_gen.value.toNat + 1 = 2 ^ 64 := by
      have hlt := r.authority.lease_gen.value.toNat_lt
      omega
    have hwrap : r.authority.lease_gen.succ.value.toNat = 0 := by
      refine (UInt64.toNat_add _ _).trans ?_
      have hone : UInt64.toNat 1 = 1 := rfl
      rw [hone, hmax, Nat.mod_self]
    rw [hwrap] at hrise
    have hzero : r.authority.lease_gen.value.toNat ≤ 0 := hrise
    omega
  · have hr := Raises.step hs himage hk
    exact ⟨h.raised hr, hr.counters⟩

/-- A lease that is acquired has a higher generation than every stored one. -/
theorem LeasesDistinct.step (h : r.LeasesDistinct) (hd : r.Dominated) (hs : Step r e t) (himage : e.op.class ≠ .image)
    (hk : r.KeepsCounters e) : t.LeasesDistinct := by
  intro l l' x x' hx hx' heq
  rw [hs.state] at hx hx'
  have habove : ∀ lease env, e.op = .acquire_lease lease env → r.Accepts env → ∀ (k : LeaseId) (old : LeaseDescriptor),
      r.leases[k]? = some old → old.generation ≠ r.authority.lease_gen.succ := by
    intro lease env hop ha k old hold hsame
    have hle := hd .lease _ ⟨k, old, hold, rfl⟩
    have hsucc := lease_succ (hk.acquired lease env hop ha)
    have hle' : old.generation.value.toNat ≤ r.authority.lease_gen.value.toNat := hle
    rw [hsame, hsucc] at hle'
    omega
  rcases lease_origin himage hx with ⟨old, hold, hgen⟩ | ⟨lease, env, hop, ha, hl, hgen⟩
  · rcases lease_origin himage hx' with ⟨old', hold', hgen'⟩ | ⟨lease', env', hop', ha', _, hgen'⟩
    · exact h l l' old old' hold hold' (hgen.symm.trans (heq.trans hgen'))
    · exact absurd (hgen.symm.trans (heq.trans hgen')) (habove lease' env' hop' ha' l old hold)
  · rcases lease_origin himage hx' with ⟨old', hold', hgen'⟩ | ⟨lease', env', hop', _, hl', _⟩
    · exact absurd (hgen'.symm.trans (heq.symm.trans hgen)) (habove lease env hop ha l' old' hold')
    · obtain ⟨rfl, _⟩ : lease = lease' ∧ env = env' := by simpa using hop.symm.trans hop'
      rw [hl, hl']

theorem fresh_dominated : fresh.Dominated := by
  have hnone : ∀ {tag : IdTag} {ρ : Type} {m : Map tag ρ} {size : ρ → ℕ} {g : ℕ}, m.isEmpty → ¬ Shows size m g := by
    rintro tag ρ m size g hm ⟨k, x, hx, _⟩
    rw [Std.ExtTreeMap.isEmpty_iff.1 hm] at hx
    cases Std.ExtTreeMap.getElem?_empty.symm.trans hx
  intro K g h
  cases K
  case runtime => exact h.elim (fun h => absurd h (hnone rfl)) fun h => absurd h (hnone rfl)
  all_goals exact absurd h (hnone rfl)

theorem fresh_leases_distinct : fresh.LeasesDistinct := by
  have hnone : fresh.leases = ∅ := Std.ExtTreeMap.isEmpty_iff.1 (by decide +kernel)
  intro l l' x x' hx
  rw [hnone] at hx
  cases Std.ExtTreeMap.getElem?_empty.symm.trans hx

/-- In every run without `load_from` whose calls meet the condition, no stored generation
lies above the counter of its domain, stored leases have different generations, and no
counter ever falls. -/
theorem counters_dominate
    (h : Lib.Reachable (Guarded Step fun r e => e.noLoad ∧ r.KeepsCounters e) fresh r) :
    r.Dominated ∧ r.LeasesDistinct ∧ ∀ es t,
      Run (Guarded Step fun r e => e.noLoad ∧ r.KeepsCounters e) r es t → CountersRise r t := by
  have hboth : r.Dominated ∧ r.LeasesDistinct := by
    refine h.inv (fun r => r.Dominated ∧ r.LeasesDistinct) ⟨fresh_dominated, fresh_leases_distinct⟩ ?_
    rintro s e t ⟨hd, hl⟩ ⟨hs, hload, hk⟩
    exact ⟨hd.raised (.step hs hload.class_ne hk), hl.step hd hs hload.class_ne hk⟩
  refine ⟨hboth.1, hboth.2, fun es t hr => ?_⟩
  refine (hr.rel Raises .refl (fun _ _ _ => .trans) ?_).counters
  rintro s e t ⟨hs, hload, hk⟩
  exact .step hs hload.class_ne hk

end Registry

namespace Sample

/-- Two leases and an instance of generation 0, registered one after the other. -/
def counted : List Op := leasing ++ [
  .acquire_lease { owned with lease_id := ⟨10⟩ } env, .register_instance (incarnation 5 0) env]

end Sample

namespace Registry

theorem counters_dominate_sample :
    let r := fresh.after Sample.counted
    r.Dominated ∧ r.LeasesDistinct ∧ ∀ es t,
      Run (Guarded Step fun r e => e.noLoad ∧ r.KeepsCounters e) r es t → CountersRise r t := by
  have hother : ∀ (s : Registry) op, op.class = .incarnation ∨ op.class = .descriptor →
      (s.call op).noLoad ∧ s.KeepsCounters (s.call op) := by
    intro s op hc
    refine ⟨fun data hop => ?_, fun inst hin => ?_, fun lease env hop => ?_⟩
    · have hclass : op.class = .image := congrArg Op.class hop
      rw [hclass] at hc
      rcases hc with hc | hc <;> cases hc
    · have hclass : op.class = .inst := (newInstance_call hin.1).1
      rw [hclass] at hc
      rcases hc with hc | hc <;> cases hc
    · have hclass : op.class = .lease := congrArg Op.class hop
      rw [hclass] at hc
      rcases hc with hc | hc <;> cases hc
  have hacquire : ∀ (s : Registry) lease env, s.authority.lease_gen.value.toNat + 1 < 2 ^ 64 →
      (s.call (.acquire_lease lease env)).noLoad ∧ s.KeepsCounters (s.call (.acquire_lease lease env)) := by
    refine fun s lease env hroom => ⟨fun data hop => ?_, fun inst hin => ?_, fun _ _ _ _ => hroom⟩
    · cases hop
    · cases hin.1
  have hregister : ∀ s : Registry, (s.call (.register_instance (Sample.incarnation 5 0) Sample.env)).noLoad ∧
      s.KeepsCounters (s.call (.register_instance (Sample.incarnation 5 0) Sample.env)) := by
    refine fun s => ⟨fun data hop => ?_, fun inst hin => ?_, fun lease env hop => ?_⟩
    · cases hop
    · obtain rfl : Sample.incarnation 5 0 = inst := Option.some.inj hin.1
      exact Nat.zero_le _
    · cases hop
  have hmeets : Meets (fun r op => (r.call op).noLoad ∧ r.KeepsCounters (r.call op)) fresh Sample.counted :=
    ⟨hother _ _ (by decide), hother _ _ (by decide), hacquire _ _ _ (by decide +kernel), hacquire _ _ _ (by decide +kernel),
      hregister _, trivial⟩
  exact counters_dominate hmeets.calls

/-- The stored instance has generation 1, and the counter is still at 0. -/
theorem counters_fall_behind :
    Sample.registry.ReachableWithoutLoad ∧
      (∃ inst, Sample.registry.instances[(⟨5⟩ : ServiceInstanceId)]? = some inst ∧ inst.instance_generation = ⟨1⟩) ∧
      Sample.registry.authority.instance_gen = ⟨0⟩ ∧ ¬ Sample.registry.Dominated := by
  have hstored : ∃ inst ∈ Sample.registry.instances[(⟨5⟩ : ServiceInstanceId)]?, inst.instance_generation = ⟨1⟩ := by
    decide +kernel
  obtain ⟨inst, hi, hgen⟩ := hstored
  have hcounter : Sample.registry.authority.instance_gen = ⟨0⟩ := by decide +kernel
  refine ⟨Sample.registry_reachable, ⟨inst, hi, hgen⟩, hcounter, fun h => ?_⟩
  have hle := h .inst _ ⟨_, inst, hi, rfl⟩
  simp only [CounterKind.counter, hcounter, hgen] at hle
  cases hle

end Registry

end RuntimeRegistry
