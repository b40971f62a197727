import RuntimeRegistry.Lib.Tokens
import RuntimeRegistry.Discovery
import RuntimeRegistry.Footprints
/-!
# Incarnations over a run

The boots are tokens drawn from `next_boot`, and the live ones are those whose
envelopes are accepted and whose instances are ranked. A run without `load_from`
only advances them. `load_from` sets the counter back to the value of its image,
so the runs with recoveries keep a ledger of what was drawn.
-/
open Lib

namespace RuntimeRegistry

/-! ## One call -/

def Op.adopts : Op → Bool
  | .adopt_worker _ => true
  | _ => false

theorem adopts_class {op : Op} (h : op.adopts = true) : op.class = .incarnation := by
  cases op <;> first | rfl | cases h

namespace Registry

variable {r : Registry}

theorem is_boot_live_insert (a : RegistryAuthority) (boot b : WorkerBootId) :
    (a.live_boots.insert boot).contains b = (boot = b || a.live_boots.contains b) := by
  by_cases h : boot = b <;> simp [h]

/-- A boot that is live after a death was live before. -/
theorem revoke_live {boot b : WorkerBootId} (h : (r.revoke_boot_internal boot).authority.is_boot_live b) :
    r.authority.is_boot_live b := by
  rw [revoke_authority] at h
  split_ifs at h
  · simp only [RegistryAuthority.is_boot_live, revokeAuthority, Std.ExtTreeSet.contains_erase, Bool.and_eq_true] at h
    exact h.2
  · exact h

/-- A boot that is live after an adoption was live before, or is the new one. -/
theorem adopt_worker_live {worker : WorkerId} {b : WorkerBootId}
    (h : (r.adopt_worker worker).2.authority.is_boot_live b) :
    r.authority.is_boot_live b ∨ b = ⟨r.next_boot + 1⟩ := by
  revert h
  refine adopt_worker_rule (P := fun t => t.authority.is_boot_live b → _) (fun _ h => ?_) fun prev _ _ h => ?_
  · rcases (by simpa [enterBoot, RegistryAuthority.is_boot_live, is_boot_live_insert] using h : _ ∨ _) with h | h
    · exact .inr h.symm
    · exact .inl h
  · rcases (by simpa [enterBoot, RegistryAuthority.is_boot_live, is_boot_live_insert] using h : _ ∨ _) with h | h
    · exact .inr h.symm
    · exact .inl (revoke_live (r := { r with next_boot := r.next_boot + 1 }) h)

/-- What a call does to the boots: it draws one if it is an adoption, and makes no
other live. -/
theorem exec_boots (scan : List ServiceInstanceId) (op : Op) (hop : op.class ≠ .image) :
    (r.exec scan op).2.next_boot = (if op.adopts then r.next_boot + 1 else r.next_boot) ∧
    ∀ b, (r.exec scan op).2.authority.is_boot_live b →
      r.authority.is_boot_live b ∨ op.adopts ∧ b = ⟨r.next_boot + 1⟩ := by
  by_cases hc : op.class = .incarnation
  · cases op <;> simp only [Op.class, reduceCtorEq] at hc
    case begin_coordinator_epoch =>
      exact ⟨rfl, fun b h => by simp [exec, begin_coordinator_epoch, RegistryAuthority.is_boot_live] at h⟩
    case adopt_worker worker =>
      obtain ⟨_, _, _, _, _, hw⟩ := r.adopt_worker_writes worker
      refine ⟨by simp only [exec, hw]; rfl, fun b h => ?_⟩
      exact (adopt_worker_live h).imp_right fun h => ⟨rfl, h⟩
    case mark_worker_died boot =>
      obtain ⟨_, _, _, _, hw⟩ := r.revoke_writes boot
      exact ⟨by simp only [exec, mark_worker_died, hw]; rfl, fun b h => .inl (revoke_live h)⟩
  · obtain ⟨hsame, hnext⟩ := r.exec_incarnations scan op hc hop
    have hadopts : op.adopts = false := by cases op <;> first | rfl | exact absurd rfl hc
    refine ⟨by rw [hnext, hadopts]; rfl, fun b h => .inl ?_⟩
    rwa [RegistryAuthority.is_boot_live, hsame.live_boots] at h

/-! ## Runs without recovery -/

/-- The boots of a registry as tokens. -/
def tokens (r : Registry) : Tokens ℕ where
  next := r.next_boot.toNat
  live := fun n => ∃ b : WorkerBootId, r.authority.is_boot_live b ∧ b.value.toNat = n

/-- The adoptions among the events. -/
def adoptions (es : List Event) : ℕ := es.countP fun e => e.op.adopts

theorem adoptions_singleton (e : Event) : adoptions [e] = if e.op.adopts then 1 else 0 := by
  simp [adoptions, List.countP_cons]

theorem step_advances {t : Registry} {e : Event} (hs : Step r e t) (he : e.noLoad)
    (hroom : r.next_boot.toNat + adoptions [e] < 2 ^ 64) :
    r.tokens.Advances t.tokens ∧ t.next_boot.toNat = r.next_boot.toNat + adoptions [e] := by
  obtain ⟨hnext, hlive⟩ := r.exec_boots e.scan e.op he.class_ne
  rw [← hs.state] at hnext hlive
  rw [adoptions_singleton] at hroom ⊢
  have hnat : t.next_boot.toNat = r.next_boot.toNat + if e.op.adopts then 1 else 0 := by
    rw [hnext]
    split_ifs at hroom ⊢
    · rw [UInt64.toNat_add, UInt64.toNat_one]
      omega
    · rfl
  refine ⟨⟨by simp only [tokens]; omega, ?_⟩, hnat⟩
  rintro n ⟨b, hb, rfl⟩
  rcases hlive b hb with h | ⟨ha, rfl⟩
  · exact .inl ⟨b, h, rfl⟩
  · right
    rw [if_pos ha] at hroom
    simp only [tokens, UInt64.toNat_add, UInt64.toNat_one]
    omega

/-- A run without `load_from` in which the counter does not wrap draws one boot
for each adoption, and advances the boots. -/
theorem run_advances {t : Registry} {es : List Event} (hr : Run (Guarded Step fun _ e => e.noLoad) r es t)
    (hroom : r.next_boot.toNat + adoptions es < 2 ^ 64) :
    r.tokens.Advances t.tokens ∧ t.next_boot.toNat = r.next_boot.toNat + adoptions es := by
  induction hr with
  | nil s => exact ⟨.refl _, by simp [adoptions]⟩
  | @cons s u t e es hs hr ih =>
    have hsplit : adoptions (e :: es) = adoptions [e] + adoptions es := by
      simp [adoptions, List.countP_cons, Nat.add_comm]
    rw [hsplit] at hroom ⊢
    obtain ⟨h₁, hn₁⟩ := step_advances hs.1 hs.2 (by omega)
    obtain ⟨h₂, hn₂⟩ := ih (by omega)
    exact ⟨h₁.trans h₂, by omega⟩

end Registry

/-- The event is an adoption that returned the boot. -/
def Event.Issues (e : Event) (b : WorkerBootId) : Prop := ∃ worker, e.op = .adopt_worker worker ∧ e.reply = .ok (.boot b)

namespace Registry
variable {r : Registry}

/-- A boot that was issued in a run does not lie above the counter at its end. -/
theorem issued_le_next_boot {t : Registry} {es : List Event} (hr : Run (Guarded Step fun _ e => e.noLoad) r es t)
    (hroom : r.next_boot.toNat + adoptions es < 2 ^ 64) {b : WorkerBootId} (hb : ∃ e ∈ es, e.Issues b) :
    b.value.toNat ≤ t.next_boot.toNat := by
  obtain ⟨e, he, worker, hop, hreply⟩ := hb
  obtain ⟨as, bs, rfl⟩ := List.append_of_mem he
  obtain ⟨s, hr₁, hr₂⟩ := hr.split
  have hcount : adoptions (as ++ e :: bs) = adoptions as + adoptions (e :: bs) := List.countP_append
  have hs := (run_advances hr₁ (by omega)).2
  cases hr₂ with
  | @cons _ u _ _ _ hstep hr₃ =>
    have hcons : adoptions (e :: bs) = adoptions bs + 1 := by simp [adoptions, hop, Op.adopts]
    have hboot : b = ⟨s.next_boot + 1⟩ := by
      have hexec := hstep.1.2
      rw [hop, hreply] at hexec
      cases hexec
      rfl
    have hu : u.next_boot = s.next_boot + 1 := by
      have := (s.exec_boots e.scan e.op hstep.2.class_ne).1
      rw [← hstep.1.state, hop] at this
      exact this
    have hlast := (run_advances hr₃ (by rw [hu, UInt64.toNat_add, UInt64.toNat_one]; omega)).1.1
    simp only [tokens, hu] at hlast
    rwa [hboot]

/-! ## A dead incarnation -/

/-- The incarnation is fenced: it is not live, no call takes effect under an
envelope that names it, and no query ranks an instance of it. -/
structure Fenced (r : Registry) (b : WorkerBootId) : Prop where
  dead : r.authority.is_boot_live b = false
  refused : ∀ scan op env, Op.envelope op = some env → env.boot = b → ∃ e, r.exec scan op = (.error e, r)
  unranked : ∀ scan q, scan.Perm r.instances.keys → ∀ id inst, r.instances[id]? = some inst → inst.boot = b →
    ∀ cs ∈ (r.query scan q).ranked, cs.instance_id ≠ id

theorem fenced_of_dead (hkey : wellKeyed.Holds r) {b : WorkerBootId} (hd : r.authority.is_boot_live b = false) :
    r.Fenced b where
  dead := hd
  refused scan op env henv hb := exec_rejected henv (fun ha => by rw [← hb, ha.2] at hd; cases hd) scan
  unranked scan q hscan id inst hi hb cs hcs hid := by
    obtain ⟨inst', svc, hc, hp⟩ := (mem_rankedIds hkey hscan).1 (List.mem_map_of_mem hcs)
    obtain rfl : inst = inst' := Option.some.inj (hi.symm.trans (hid ▸ hc.stored))
    have hlive := hp.accepted.live
    rw [hb, hd] at hlive
    cases hlive

/-- Once an issued boot is no longer live, it stays fenced for the rest of every
run without `load_from` in which `next_boot` does not wrap. -/
theorem dead_incarnation_stays_fenced {t u : Registry} {es es' : List Event}
    (hr : Run (Guarded Step fun _ e => e.noLoad) fresh es t) {b : WorkerBootId} (hissued : ∃ e ∈ es, e.Issues b)
    (hdead : t.authority.is_boot_live b = false) (hr' : Run (Guarded Step fun _ e => e.noLoad) t es' u)
    (hroom : 100 + adoptions (es ++ es') < 2 ^ 64) : u.Fenced b := by
  have hfresh : fresh.next_boot.toNat = 100 := by decide +kernel
  have hcount : adoptions (es ++ es') = adoptions es + adoptions es' := List.countP_append
  have hkey : wellKeyed.Holds u := wellKeyed_reachable (ReachableWithoutLoad.reachable ⟨es ++ es', hr.append hr'⟩)
  refine fenced_of_dead hkey ?_
  have ht := (run_advances hr (by omega)).2
  have hle := issued_le_next_boot hr (by omega) hissued
  have hadv := (run_advances hr' (by omega)).1
  have hnot : b.value.toNat ∉ t.tokens.live := by
    rintro ⟨b', hb', hval⟩
    obtain rfl : b' = b := Id.value_inj.1 (UInt64.toNat_inj.1 hval)
    rw [hdead] at hb'
    cases hb'
  by_contra hlive
  exact hadv.dead hle hnot ⟨b, by simpa using hlive, rfl⟩

/-- The events of a script. -/
def calls : Registry → List Op → List Event
  | _, [] => []
  | r, op :: ops => r.call op :: (r.after [op]).calls ops

theorem run_calls (r : Registry) {ops : List Op} (hops : ∀ op ∈ ops, ∀ data, op ≠ .load_from data) :
    Run (Guarded Step fun _ e => e.noLoad) r (r.calls ops) (r.after ops) := by
  induction ops generalizing r with
  | nil => exact .nil r
  | cons op ops ih =>
    rw [List.forall_mem_cons] at hops
    exact .cons ⟨r.step_call op, hops.1⟩ (ih _ hops.2)

/-- The worker of the sample dies. -/
def Sample.passing : List Op := Sample.setup ++ [.mark_worker_died ⟨101⟩]

/-- Another one registers a newer instance, and the dead one goes on to report. -/
def Sample.inheriting : List Op := [.adopt_worker ⟨2⟩,
  .register_instance { Sample.incarnation 6 2 with boot := ⟨102⟩ } { Sample.env with boot := ⟨102⟩ },
  .update_health ⟨5⟩ Health.HEALTHY Sample.env]

theorem dead_incarnation_stays_fenced_inherited :
    let inherited := (fresh.after Sample.passing).after Sample.inheriting
    inherited.Fenced ⟨101⟩ ∧ (inherited.instances[(⟨5⟩ : ServiceInstanceId)]?.map (·.boot)) = some ⟨101⟩ ∧
      (inherited.instances[(⟨6⟩ : ServiceInstanceId)]?.map (·.boot)) = some ⟨102⟩ := by
  have hbefore := @run_calls fresh Sample.passing (by simp [Sample.passing, Sample.setup])
  have hafter := @run_calls (fresh.after Sample.passing) Sample.inheriting (by simp [Sample.inheriting])
  have hfenced := dead_incarnation_stays_fenced hbefore ⟨_, List.mem_cons_self, ⟨1⟩, rfl, rfl⟩ (by decide +kernel) hafter
    (by decide +kernel)
  exact ⟨hfenced, by decide +kernel, by decide +kernel⟩

end Registry

end RuntimeRegistry
