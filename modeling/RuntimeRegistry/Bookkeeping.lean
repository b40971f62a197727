import RuntimeRegistry.Lib.Holders
import RuntimeRegistry.Incarnations
import RuntimeRegistry.LoadFailures
/-!
# Who runs under which boot

The authority state names the boot of a worker and the worker of a boot. The two
maps are read as one table of holders, where the zero boot stands for none. An
adoption takes a new boot in place of the old one and a death releases one, so
the table stays matched, and the live boots are the ones in it.
-/
open Lib

namespace RuntimeRegistry

/-- Who runs under which boot. -/
def RegistryAuthority.holders (a : RegistryAuthority) : Holders WorkerId WorkerBootId where
  current w := a.current_boot[w]?.filter fun b => b.value ≠ 0
  owner b := a.boot_worker[b]?

/-- The call does not wrap `next_boot`. -/
def NoWrap (r : Registry) (e : Event) : Prop := e.op.adopts = true → r.next_boot.toNat + 1 < 2 ^ 64

namespace Registry

variable {r : Registry} {w : WorkerId} {b boot : WorkerBootId}

/-- The live boots are the ones in the table of holders, which is matched. -/
structure Bookkept (r : Registry) : Prop where
  live : ∀ b, r.authority.is_boot_live b = true ↔ ∃ w, r.authority.holders.owner b = some w
  matched : r.authority.holders.Matched
  nonzero : ∀ b, r.authority.is_boot_live b = true → b.value ≠ 0
  bounded : ∀ b, r.authority.is_boot_live b = true → b.value.toNat ≤ r.next_boot.toNat

/-! ## Death -/

theorem holders_revokeAuthority {a : RegistryAuthority} (hm : a.holders.Matched) (ho : a.holders.owner boot = some w) :
    (revokeAuthority a boot).holders = a.holders.release boot := by
  have hw : a.holders.current w = some boot := (hm w boot).2 ho
  have hstored : a.current_boot[w]? = some boot := (Option.filter_eq_some_iff.1 hw).1
  have howner : a.boot_owner boot = w := by
    rw [RegistryAuthority.boot_owner, Std.ExtTreeMap.getD_eq_getD_getElem?]
    exact congrArg (·.getD {}) ho
  refine Holders.ext (fun w' => ?current) fun b' => ?owner
  case current =>
    change (revokeAuthority a boot).current_boot[w']?.filter _ = if a.holders.current w' = some boot then none else _
    rw [revokeAuthority, howner, if_pos hstored, Std.ExtTreeMap.getElem?_insert]
    by_cases hww : w = w'
    · subst hww
      rw [if_pos hw]
      simp
    · rw [if_neg (by simpa using hww), if_neg fun hw' => hww (hm.unique hw hw')]
      rfl
  case owner =>
    have hcomm : b' = boot ↔ boot = b' := eq_comm
    simp only [RegistryAuthority.holders, revokeAuthority, Holders.release, Std.ExtTreeMap.getElem?_erase, hcomm]
    by_cases hbb : boot = b' <;> simp [hbb]

theorem Bookkept.dead (h : r.Bookkept) (hb : r.authority.is_boot_live b = false) : r.authority.holders.owner b = none := by
  rcases ho : r.authority.holders.owner b with _ | w
  · rfl
  · rw [(h.live b).2 ⟨w, ho⟩] at hb
    cases hb

/-- A death releases the boot. -/
theorem Bookkept.holders_revoke (h : r.Bookkept) (boot : WorkerBootId) :
    (r.revoke_boot_internal boot).authority.holders = r.authority.holders.release boot := by
  rw [revoke_authority]
  split_ifs with hlive
  · obtain ⟨w, ho⟩ := (h.live boot).1 hlive
    exact holders_revokeAuthority h.matched ho
  · exact (h.matched.release_free (h.dead (by simpa using hlive))).symm

theorem revoke_is_boot_live (r : Registry) (boot b : WorkerBootId) :
    (r.revoke_boot_internal boot).authority.is_boot_live b = true ↔ b ≠ boot ∧ r.authority.is_boot_live b = true := by
  rw [revoke_authority]
  split_ifs with hlive
  · have hcomm : b ≠ boot ↔ ¬ boot = b := not_congr eq_comm
    by_cases hb : boot = b <;> simp [RegistryAuthority.is_boot_live, revokeAuthority, hb, hcomm]
  · refine ⟨fun h => ⟨?_, h⟩, fun h => h.2⟩
    rintro rfl
    exact hlive h

theorem revoke_next_boot (r : Registry) (boot : WorkerBootId) : (r.revoke_boot_internal boot).next_boot = r.next_boot := by
  obtain ⟨_, _, _, _, h⟩ := r.revoke_writes boot
  rw [h]

theorem Bookkept.revoke (h : r.Bookkept) (boot : WorkerBootId) : (r.revoke_boot_internal boot).Bookkept where
  live b := by
    rw [revoke_is_boot_live, h.live, h.holders_revoke, Holders.release]
    by_cases hb : b = boot <;> simp [hb]
  matched := h.holders_revoke boot ▸ h.matched.release boot
  nonzero b hb := h.nonzero b ((revoke_is_boot_live r boot b).1 hb).2
  bounded b hb := by
    rw [revoke_next_boot]
    exact h.bounded b ((revoke_is_boot_live r boot b).1 hb).2

/-! ## Adoption -/

theorem holders_enterBoot (worker : WorkerId) (hz : boot.value ≠ 0) :
    (enterBoot worker boot r).authority.holders = r.authority.holders.assign worker boot := by
  refine Holders.ext (fun w => ?current) fun b => ?owner
  case current =>
    simp only [RegistryAuthority.holders, enterBoot, Holders.assign, Std.ExtTreeMap.getElem?_insert]
    by_cases hw : worker = w
    · subst hw
      simp [hz]
    · rw [if_neg (by simpa using hw), Function.update_of_ne (Ne.symm hw)]
  case owner =>
    simp only [RegistryAuthority.holders, enterBoot, Holders.assign, Std.ExtTreeMap.getElem?_insert]
    by_cases hb : boot = b
    · subst hb
      simp
    · rw [if_neg (by simpa using hb), Function.update_of_ne (Ne.symm hb)]

/-- The boot that the next adoption draws. -/
def nextBoot (r : Registry) : WorkerBootId := ⟨r.next_boot + 1⟩

theorem nextBoot_toNat (hroom : r.next_boot.toNat + 1 < 2 ^ 64) : r.nextBoot.value.toNat = r.next_boot.toNat + 1 := by
  rw [nextBoot, UInt64.toNat_add, UInt64.toNat_one, Nat.mod_eq_of_lt hroom]

theorem Bookkept.nextBoot_dead (h : r.Bookkept) (hroom : r.next_boot.toNat + 1 < 2 ^ 64) :
    r.authority.is_boot_live r.nextBoot = false := by
  by_contra hlive
  have hle := h.bounded _ (by simpa using hlive)
  rw [nextBoot_toNat hroom] at hle
  omega

/-- An adoption takes the next boot in place of the one the worker held. -/
theorem Bookkept.holders_adopt (h : r.Bookkept) (hroom : r.next_boot.toNat + 1 < 2 ^ 64) (worker : WorkerId) :
    (r.adopt_worker worker).2.authority.holders = r.authority.holders.take worker r.nextBoot := by
  have hz : r.nextBoot.value ≠ 0 := fun h0 => by
    have := nextBoot_toNat hroom
    rw [h0] at this
    cases this
  refine adopt_worker_rule (P := fun t => t.authority.holders = _) (fun hfirst => ?first) fun prev hprev hne => ?again
  case first =>
    have hnone : r.authority.holders.current worker = none := by
      rcases hc : r.authority.holders.current worker with _ | held
      · rfl
      · have hlive := (h.live held).2 ⟨worker, (h.matched worker held).1 hc⟩
        rw [hfirst held (Option.filter_eq_some_iff.1 hc).1] at hlive
        exact absurd hlive ((Bool.eq_false_iff).1 (h.nextBoot_dead hroom))
    rw [Holders.take, hnone]
    exact holders_enterBoot worker hz
  case again =>
    have hkept : ({ r with next_boot := r.next_boot + 1 }.revoke_boot_internal prev).authority.holders =
        r.authority.holders.release prev := by
      rw [revoke_authority]
      exact (congrArg RegistryAuthority.holders (revoke_authority r prev)).symm.trans (h.holders_revoke prev)
    refine (holders_enterBoot worker hz).trans ?_
    rw [hkept, Holders.take]
    by_cases hprev0 : prev.value = 0
    · have hnone : r.authority.holders.current worker = none := by simp [RegistryAuthority.holders, hprev, hprev0]
      have hfree : r.authority.holders.owner prev = none := h.dead (by
        by_contra hlive
        exact h.nonzero prev (by simpa using hlive) hprev0)
      rw [hnone, h.matched.release_free hfree]
    · have hsome : r.authority.holders.current worker = some prev := by
        simp [RegistryAuthority.holders, hprev, hprev0]
      rw [hsome]

theorem adopt_next_boot (r : Registry) (worker : WorkerId) : (r.adopt_worker worker).2.next_boot = r.next_boot + 1 := by
  obtain ⟨_, _, _, _, _, h⟩ := r.adopt_worker_writes worker
  rw [h]

theorem enterBoot_live {worker : WorkerId}
    (h : ∀ b, r.authority.is_boot_live b = true ↔ ∃ w, r.authority.holders.owner b = some w) (b : WorkerBootId) :
    (enterBoot worker boot r).authority.is_boot_live b = true ↔
      ∃ w, (enterBoot worker boot r).authority.holders.owner b = some w := by
  have hb := h b
  simp only [RegistryAuthority.is_boot_live, RegistryAuthority.holders] at hb
  rw [RegistryAuthority.is_boot_live, enterBoot, is_boot_live_insert]
  simp only [RegistryAuthority.holders, Std.ExtTreeMap.getElem?_insert, Bool.or_eq_true, decide_eq_true_eq]
  by_cases hbb : boot = b <;> simp [hbb, hb]

theorem Bookkept.adopt (h : r.Bookkept) (hroom : r.next_boot.toNat + 1 < 2 ^ 64) (worker : WorkerId) :
    (r.adopt_worker worker).2.Bookkept := by
  have hnext := nextBoot_toNat hroom
  refine ⟨fun b => ?live, ?matched, fun b hb => ?nonzero, fun b hb => ?bounded⟩
  case live =>
    refine adopt_worker_rule (P := fun t => t.authority.is_boot_live b = true ↔
      ∃ w, t.authority.holders.owner b = some w) (fun _ => ?_) fun prev _ _ => ?_
    · exact enterBoot_live (r := { r with next_boot := r.next_boot + 1 }) h.live b
    · have hrevoked := (h.revoke prev).live
      rw [revoke_authority] at hrevoked
      refine enterBoot_live (fun b => ?_) b
      rw [revoke_authority]
      exact hrevoked b
  case matched =>
    rw [h.holders_adopt hroom]
    exact h.matched.take worker (h.dead (h.nextBoot_dead hroom))
  case nonzero =>
    rcases adopt_worker_live hb with hb | rfl
    · exact h.nonzero b hb
    · intro h0
      rw [nextBoot, h0] at hnext
      cases hnext
  case bounded =>
    rw [adopt_next_boot]
    change b.value.toNat ≤ r.nextBoot.value.toNat
    rcases adopt_worker_live hb with hb | rfl
    · exact (h.bounded b hb).trans (by rw [hnext]; exact Nat.le_succ _)
    · exact le_rfl

/-! ## Every call -/

/-- Without a live boot there is nothing to keep. -/
theorem bookkept_of_cleared (hlive : r.authority.live_boots = ∅) (hcurrent : r.authority.current_boot = ∅)
    (howner : r.authority.boot_worker = ∅) : r.Bookkept := by
  have hdead : ∀ b, r.authority.is_boot_live b = false := fun b => by simp [RegistryAuthority.is_boot_live, hlive]
  refine ⟨fun b => ?_, fun w b => ?_, fun b hb => ?_, fun b hb => ?_⟩
  · simp [hdead b, RegistryAuthority.holders, howner]
  · simp [RegistryAuthority.holders, hcurrent, howner]
  · rw [hdead b] at hb
    cases hb
  · rw [hdead b] at hb
    cases hb

/-- The bookkeeping is about the incarnations and the counter alone. -/
theorem Bookkept.same {t : Registry} (h : r.Bookkept) (hsame : r.authority.SameIncarnations t.authority)
    (hnext : t.next_boot = r.next_boot) : t.Bookkept := by
  have hholders : t.authority.holders = r.authority.holders := by
    simp only [RegistryAuthority.holders, hsame.current_boot, hsame.boot_worker]
  have hlive : ∀ b, t.authority.is_boot_live b = r.authority.is_boot_live b := fun b => by
    simp only [RegistryAuthority.is_boot_live, hsame.live_boots]
  refine ⟨fun b => ?_, hholders ▸ h.matched, fun b hb => h.nonzero b ((hlive b).symm.trans hb), fun b hb => ?_⟩
  · rw [hlive, hholders]
    exact h.live b
  · rw [hnext]
    exact h.bounded b ((hlive b).symm.trans hb)

/-- The header of an image has no incarnations. -/
theorem header_incarnations (content : List UInt8) : (headerOf content).1.authority.live_boots = ∅ ∧
    (headerOf content).1.authority.current_boot = ∅ ∧ (headerOf content).1.authority.boot_worker = ∅ := ⟨rfl, rfl, rfl⟩

theorem rebuild_indexes_authority (r : Registry) : r.rebuild_indexes.authority = r.authority := by
  obtain ⟨_, _, _, _, h⟩ := r.rebuild_indexes_writes
  rw [h]

theorem restore_authority (header : Header) (r : Registry) : (restore header r).authority = header.authority := by
  unfold restore
  exact rebuild_indexes_authority _

theorem restore_next_boot (header : Header) (r : Registry) : (restore header r).next_boot = header.next_boot := by
  unfold restore
  dsimp only
  obtain ⟨_, _, _, _, h⟩ := rebuild_indexes_writes { r with
    authority := header.authority, next_boot := header.next_boot, next_id := header.next_id
    instances := r.instances.map fun _ => recoverInstance, endpoints := r.endpoints.map fun _ => recoverEndpoint
    capabilities := r.capabilities.map fun _ => recoverCapability, leases := r.leases.map fun _ => recoverLease }
  rw [h]

theorem Bookkept.load_from (h : r.Bookkept) (data : List UInt8) : (r.load_from data).2.Bookkept := by
  have hread : ∀ s : Registry, (s.withRecords r).Bookkept := fun s => h.same (.refl _) rfl
  refine load_from_rule (P := Bookkept) (fun _ => h) (fun _ _ => hread _) fun _ _ => ?_
  obtain ⟨hlive, hcurrent, howner⟩ := header_incarnations (sealedContent data)
  generalize headerOf (sealedContent data) = header at hlive hcurrent howner
  exact bookkept_of_cleared (by rw [restore_authority, hlive]) (by rw [restore_authority, hcurrent])
    (by rw [restore_authority, howner])

theorem Bookkept.step {t : Registry} {e : Event} (h : r.Bookkept) (hs : Guarded Step NoWrap r e t) : t.Bookkept := by
  obtain ⟨hs, hroom⟩ := hs
  rw [hs.state]
  by_cases hc : e.op.class = .incarnation
  · rcases hop : e.op <;> rw [hop] at hc <;> simp only [Op.class, reduceCtorEq] at hc
    case begin_coordinator_epoch => exact bookkept_of_cleared rfl rfl rfl
    case adopt_worker worker => exact h.adopt (hroom (by rw [hop]; rfl)) worker
    case mark_worker_died boot => exact h.revoke boot
  · by_cases hi : e.op.class = .image
    · rcases hop : e.op <;> rw [hop] at hi <;> simp only [Op.class, reduceCtorEq] at hi
      exact h.load_from _
    · obtain ⟨hsame, hnext⟩ := r.exec_incarnations e.scan e.op hc hi
      exact h.same hsame hnext

/-! ## Every run -/

/-- Boots and workers are in a bijection: a live boot has one worker, which has it
as its current boot, and no two live boots are of one worker. -/
structure Bijective (r : Registry) : Prop where
  keys : ∀ b, b ∈ r.authority.boot_worker ↔ b ∈ r.authority.live_boots
  current : ∀ b ∈ r.authority.live_boots, ∀ w, r.authority.boot_worker[b]? = some w →
    r.authority.current_boot[w]? = some b
  unique : ∀ b ∈ r.authority.live_boots, ∀ b' ∈ r.authority.live_boots, ∀ w,
    r.authority.boot_worker[b]? = some w → r.authority.boot_worker[b']? = some w → b = b'
  entries : ∀ (w : WorkerId) (b : WorkerBootId), r.authority.current_boot[w]? = some b → b.value ≠ 0 →
    b ∈ r.authority.live_boots
  range : ∀ b ∈ r.authority.live_boots, b.value ≠ 0 ∧ b.value ≤ r.next_boot

theorem Bookkept.bijective (h : r.Bookkept) : r.Bijective := by
  have hmem : ∀ b, b ∈ r.authority.live_boots ↔ r.authority.is_boot_live b = true := fun b =>
    Std.ExtTreeSet.mem_iff_contains
  have hcurrent : ∀ b w, r.authority.boot_worker[b]? = some w → r.authority.current_boot[w]? = some b := fun b w ho =>
    (Option.filter_eq_some_iff.1 ((h.matched w b).2 ho)).1
  refine ⟨fun b => ?keys, fun b _ w => hcurrent b w, fun b _ b' _ w hb hb' => ?unique, fun w b hb hz => ?entries,
    fun b hb => ?range⟩
  case keys =>
    rw [hmem, h.live, Std.ExtTreeMap.mem_iff_isSome_getElem?, Option.isSome_iff_exists]
    rfl
  case unique => exact Option.some.inj ((hcurrent b w hb).symm.trans (hcurrent b' w hb'))
  case entries =>
    rw [hmem, h.live]
    exact ⟨w, (h.matched w b).1 (Option.filter_eq_some_iff.2 ⟨hb, by simpa using hz⟩)⟩
  case range =>
    rw [hmem] at hb
    exact ⟨h.nonzero b hb, UInt64.le_iff_toNat_le.2 (h.bounded b hb)⟩

/-- In every run in which `next_boot` does not wrap, the bookkeeping of the
incarnations is a bijection. -/
theorem incarnations_bijective (h : Lib.Reachable (Guarded Step NoWrap) fresh r) : r.Bijective :=
  (h.inv Bookkept (bookkept_of_cleared rfl rfl rfl) fun _ _ _ hs hst => hs.step hst).bijective

/-- A worker that was adopted twice. -/
theorem incarnations_bijective_restart : (fresh.after [.adopt_worker ⟨1⟩, .adopt_worker ⟨1⟩]).Bijective := by
  refine incarnations_bijective ⟨[⟨.adopt_worker ⟨1⟩, fresh.instances.keys, .ok (.boot ⟨101⟩)⟩,
    ⟨.adopt_worker ⟨1⟩, (fresh.after [.adopt_worker ⟨1⟩]).instances.keys, .ok (.boot ⟨102⟩)⟩], ?_⟩
  exact .cons ⟨⟨.refl _, rfl⟩, fun _ => by decide +kernel⟩
    (.cons (t := fresh.after [.adopt_worker ⟨1⟩, .adopt_worker ⟨1⟩]) ⟨⟨.refl _, rfl⟩, fun _ => by decide +kernel⟩ (.nil _))

end Registry

end RuntimeRegistry
