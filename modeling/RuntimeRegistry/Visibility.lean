import RuntimeRegistry.Assignment
import RuntimeRegistry.Convergence
import RuntimeRegistry.Fleet
/-!
# What takes an instance out of the answers

Any client may connect and send any lines. An instance that a query finds is found by
every later one until its connection closes, a client greets as its worker, a newer
instance of its service is registered, its service is registered as another kind, or an
update finds that its endpoint is gone. Nothing else that a client can send keeps an
instance from being found.
-/
open Lib

namespace RuntimeRegistry

/-! ## Lines and messages -/

/-- A request changes no instance before a greeting, and an instance that it registers
has no id and no lease. -/
def Anonymous (has_worker : Bool) : Request → Prop
  | .message (.REG_IN inst) => has_worker = true ∧ inst.instance_id.value = 0 ∧ inst.lease.value = 0
  | .message (.HELLO _) | .message .PING | .message (.QUERY _) | .refused _ => True
  | .message _ => has_worker = true

theorem request_anonymous (has_worker : Bool) (p : List Text) : Ensures (Anonymous has_worker) (request has_worker p) := by
  unfold request
  refine ensures_bind fun op _ => ?_
  refine ensures_ite (fun _ => ?_) fun _ => ?_
  · repeat refine ensures_bind fun _ _ => ?_
    exact ensures_pure trivial
  refine ensures_ite (fun _ => ensures_pure trivial) fun _ => ?_
  refine ensures_ite (fun _ => ensures_bind fun _ _ => ensures_pure trivial) fun _ => ?_
  refine ensures_ite (fun _ => ensures_pure trivial) fun hworker => ?_
  have hknown : has_worker = true := by simpa using hworker
  -- the branches of the mutations
  iterate 7
    refine ensures_ite (fun _ => ?_) fun _ => ?_
    · repeat refine ensures_bind fun _ _ => ?_
      first | exact ensures_pure hknown | exact ensures_pure ⟨hknown, rfl, rfl⟩
  exact ensures_pure trivial

/-- The call behind a message that changes records. -/
def Message.mutation (s : Session) : Message → Option (AuthorityEnvelope → Op)
  | .UH id h generation => some fun env => .update_health id h { env with service_instance_generation := generation }
  | .UR id rd generation => some fun env => .update_readiness id rd { env with service_instance_generation := generation }
  | m => m.call s

namespace Coordinator

variable {c c' : Coordinator} {conn : ℕ} {scan : List ServiceInstanceId} {payload : Text} {reply : List UInt8} {m : Message}
  {op : AuthorityEnvelope → Op}

/-- The line is read as the message. -/
def Reads (c : Coordinator) (conn : ℕ) (payload : Text) (m : Message) : Prop :=
  request (c.sessions conn).has_worker (split payload ','.toUInt8) = .ok (.message m)

theorem Reads.unique {m' : Message} (h : c.Reads conn payload m) (h' : c.Reads conn payload m') : m' = m := by
  rw [Reads, h] at h'
  cases h'
  rfl

theorem Reads.anonymous (h : c.Reads conn payload m) : Anonymous (c.sessions conn).has_worker (.message m) :=
  request_anonymous _ _ _ h

/-- A line is refused, or it is read as a message and handled. -/
theorem process_cases (h : c.process conn scan payload = .ok (c', reply)) :
    c' = c ∧ (∀ m, ¬ c.Reads conn payload m) ∨ ∃ m, c.Reads conn payload m ∧ c' = c.handle conn scan m := by
  unfold process at h
  split at h
  · cases h
  · rename_i hrefused
    cases h
    refine .inl ⟨rfl, fun m hm => ?_⟩
    rw [Reads, hrefused] at hm
    cases hm
  · cases h
    exact .inr ⟨_, ‹_›, rfl⟩

theorem handle_mutation (h : m.mutation (c.sessions conn) = some op) : c.handle conn scan m = c.mutate conn scan op := by
  cases m <;> cases h <;> rfl

theorem mutation_class (h : m.mutation (c.sessions conn) = some op) (env : AuthorityEnvelope) :
    (op env).class = .descriptor ∨ (op env).class = .inst := by
  cases m <;> cases h <;> simp [Op.class]

/-- A message without a call is a greeting, or changes nothing. -/
theorem handle_other (h : m.mutation (c.sessions conn) = none) :
    (∃ worker, m = .HELLO worker) ∨ c.handle conn scan m = c := by
  cases m <;> first | exact .inl ⟨_, rfl⟩ | exact .inr rfl | cases h

/-- The call of a line that was read is made. -/
theorem Reads.mutates (hread : c.Reads conn payload m) (h : m.mutation (c.sessions conn) = some op) :
    c.handle conn scan m = { c with registry := (c.registry.exec scan (op (c.envelope conn))).2 } := by
  have hworker : (c.sessions conn).has_worker = true := by
    have hanonymous := hread.anonymous
    cases m <;> first | exact hanonymous | exact hanonymous.1 | cases h
  rw [handle_mutation h, mutate, hworker]
  rfl

/-! ## Clients -/

end Coordinator

/-- What reaches the coordinator next: the line of a frame, or the end of a connection. -/
inductive Traffic
  | line (conn : ℕ) (scan : List ServiceInstanceId) (payload : Text)
  | close (conn : ℕ)

namespace Coordinator

/-- A line is not empty: an empty one ends the loop of its connection. -/
inductive Takes : Coordinator → Traffic → Coordinator → Prop
  | line {c c' : Coordinator} {conn : ℕ} {scan : List ServiceInstanceId} {payload : Text} {reply : List UInt8}
    (isOpen : (c.sessions conn).closed = false) (walk : scan.Perm c.registry.instances.keys) (nonempty : payload ≠ [])
    (processed : c.process conn scan payload = .ok (c', reply)) : Takes c (.line conn scan payload) c'
  | close {c : Coordinator} {conn : ℕ} (isOpen : (c.sessions conn).closed = false) : Takes c (.close conn) (c.close conn)

theorem Takes.unique {a : Traffic} {c₁ c₂ : Coordinator} (h₁ : Takes c a c₁) (h₂ : Takes c a c₂) : c₂ = c₁ := by
  cases h₁ with
  | line _ _ _ hp =>
    cases h₂ with
    | line _ _ _ hp' =>
      rw [hp] at hp'
      exact (Prod.mk.inj (Except.ok.inj hp')).1.symm
  | close =>
    cases h₂
    rfl

/-- No counter is about to wrap. -/
def Roomy (c : Coordinator) (_ : Traffic) : Prop :=
  c.registry.next_boot.toNat + 1 < 2 ^ 64 ∧ c.registry.next_id.toNat + 1 < 2 ^ 64

end Coordinator

/-! ## Who runs what -/

namespace Registry

variable {r t : Registry} {w : WorkerId} {b : WorkerBootId}

/-- The boot was drawn, and no other worker runs under it. -/
structure Runs (r : Registry) (w : WorkerId) (b : WorkerBootId) : Prop where
  drawn : b.value.toNat ≤ r.next_boot.toNat
  owner : ∀ w', r.authority.holders.owner b = some w' → w' = w

theorem Runs.same (h : r.Runs w b) (hsame : r.authority.SameIncarnations t.authority) (hnext : t.next_boot = r.next_boot) :
    t.Runs w b := by
  refine ⟨by rw [hnext]; exact h.drawn, fun w' hw' => h.owner w' ?_⟩
  rwa [RegistryAuthority.holders, hsame.boot_worker] at hw'

theorem Runs.revoke (h : r.Runs w b) (hbook : r.Bookkept) (boot : WorkerBootId) : (r.revoke_boot_internal boot).Runs w b := by
  refine ⟨by rw [revoke_next_boot]; exact h.drawn, fun w' hw' => h.owner w' ?_⟩
  rw [hbook.holders_revoke, Holders.release] at hw'
  dsimp only at hw'
  split_ifs at hw'
  exact hw'

theorem Runs.adopt (h : r.Runs w b) (hbook : r.Bookkept) (hroom : r.next_boot.toNat + 1 < 2 ^ 64) (worker : WorkerId) :
    (r.adopt_worker worker).2.Runs w b := by
  have hnext := nextBoot_toNat hroom
  have hdrawn := h.drawn
  refine ⟨?_, fun w' hw' => h.owner w' ?_⟩
  · rw [adopt_next_boot]
    change _ ≤ r.nextBoot.value.toNat
    omega
  · rw [hbook.holders_adopt hroom, hbook.matched.take_owner, if_neg (by rintro rfl; omega)] at hw'
    split_ifs at hw'
    exact hw'

theorem runs_adopted (hbook : r.Bookkept) (hroom : r.next_boot.toNat + 1 < 2 ^ 64) (worker : WorkerId) :
    (r.adopt_worker worker).2.Runs worker r.nextBoot := by
  refine ⟨by rw [adopt_next_boot]; exact le_rfl, fun w' hw' => ?_⟩
  rw [hbook.holders_adopt hroom, hbook.matched.take_owner, if_pos rfl] at hw'
  exact (Option.some.inj hw').symm

/-- An adoption ends the boot that its worker ran under, and no other. -/
theorem adopt_live_iff (hbook : r.Bookkept) (hroom : r.next_boot.toNat + 1 < 2 ^ 64) (worker : WorkerId) (hrun : r.Runs w b)
    (hlive : r.authority.is_boot_live b = true) :
    (r.adopt_worker worker).2.authority.is_boot_live b = true ↔ worker ≠ w := by
  have hnext := nextBoot_toNat hroom
  have hdrawn := hrun.drawn
  obtain ⟨w', hw'⟩ := (hbook.live b).1 hlive
  obtain rfl := hrun.owner w' hw'
  rw [(hbook.adopt hroom worker).live, hbook.holders_adopt hroom]
  simp only [hbook.matched.take_owner, if_neg (show b ≠ r.nextBoot by rintro rfl; omega), hw', Option.some.injEq]
  by_cases hsame : w' = worker
  · simp [hsame]
  · simp [hsame, Ne.symm hsame]

/-! ## What an instance keeps -/

end Registry

/-- What no call other than a registration writes. -/
def ServiceInstance.host (inst : ServiceInstance) : WorkerId × WorkerBootId × LeaseId := (inst.worker, inst.boot, inst.lease)

namespace Registry

variable {r t : Registry} {op : Op} {k : ServiceInstanceId}

theorem updates_host {write : ServiceInstance → ServiceInstance} (hop : op.updates = some (k, write))
    (inst : ServiceInstance) : (write inst).host = inst.host := by
  cases op <;> simp only [Op.updates, reduceCtorEq, Option.some.injEq, Prod.mk.injEq] at hop
  all_goals
    obtain ⟨rfl, rfl⟩ := hop
    rfl

/-- A stored instance has its host from before the call, or from the registration. -/
theorem Change.host (h : Change r op t k) {inst : ServiceInstance} (hi : t.instances[k]? = some inst) :
    (∃ old, r.instances[k]? = some old ∧ inst.host = old.host) ∨ ∃ new, op.newInstance = some new ∧ inst.host = new.host := by
  have hstored : ∀ {x}, t.instances[k]? = some x → x = inst := fun h => Option.some.inj (h.symm.trans hi)
  cases h with
  | kept h => exact .inl ⟨inst, h.symm.trans hi, rfl⟩
  | updated write old hop _ hold h =>
    obtain rfl := hstored h
    exact .inl ⟨old, hold, updates_host hop old⟩
  | refreshed old _ hold h | superseded old hold _ h | retired _ old _ _ hold h | dead old _ _ hold h =>
    obtain rfl := hstored h
    exact .inl ⟨old, hold, rfl⟩
  | stored new hop _ _ h =>
    obtain rfl := hstored h
    exact .inr ⟨new, hop, rfl⟩
  | revalidated old _ hold h =>
    obtain rfl := hstored h
    refine .inl ⟨old, hold, ?_⟩
    unfold revalidateInstance
    dsimp only
    split_ifs <;> rfl

/-- A call about incarnations, but for a new epoch, leaves an instance or is its death. -/
theorem Change.death (h : Change r op t k) (hc : op.class = .incarnation) (hepoch : op ≠ .begin_coordinator_epoch) :
    t.instances[k]? = r.instances[k]? ∨ ∃ old, op.Kills r old.boot ∧ r.instances[k]? = some old ∧
      t.instances[k]? = some (deadInstance old) := by
  have hnew : ∀ new, op.newInstance ≠ some new := fun new hop => by
    rw [(newInstance_call hop).1] at hc
    cases hc
  cases h with
  | kept h => exact .inl h
  | dead old hkill _ hold h => exact .inr ⟨old, hkill, hold, h⟩
  | updated _ _ hop =>
    rw [updates_class hop] at hc
    cases hc
  | stored _ hop => exact absurd hop (hnew _)
  | refreshed _ hop =>
    obtain ⟨_, _, _, _, rfl, _⟩ := hop
    cases hc
  | superseded _ _ hwhy =>
    rcases hwhy with ⟨_, hop, _⟩ | ⟨_, _, rfl, _⟩
    · exact absurd hop (hnew _)
    · cases hc
  | retired _ _ hop =>
    rw [hop] at hc
    cases hc
  | revalidated _ hop => exact absurd hop hepoch

/-- The boot that an adoption replaces is not live any more. -/
theorem adopt_ends {worker : WorkerId} {prev : WorkerBootId} (hprev : r.authority.current_boot[worker]? = some prev)
    (hne : prev ≠ ⟨r.next_boot + 1⟩) : (r.adopt_worker worker).2.authority.is_boot_live prev = false := by
  refine adopt_worker_rule (P := fun t => t.authority.is_boot_live prev = false) (fun hfirst => absurd (hfirst prev hprev) hne)
    fun prev' hprev' _ => ?_
  obtain rfl := Option.some.inj (hprev.symm.trans hprev')
  have hdead := (revoke_is_boot_live { r with next_boot := r.next_boot + 1 } prev prev).not.2 fun h => h.1 rfl
  rw [RegistryAuthority.is_boot_live, enterBoot, is_boot_live_insert, Bool.or_eq_false_iff]
  exact ⟨by simp [Ne.symm hne], Bool.eq_false_iff.2 hdead⟩

/-- The ids of the instances are below the counter, unless a call brings one. -/
theorem Numbers.below (h : Numbers op r t) (hroom : r.next_id.toNat + 1 < 2 ^ 64)
    (hzero : ∀ v, op.names = some (.inst, v) → v = 0) (hbelow : ∀ k ∈ r.instances, k.value.toNat < r.next_id.toNat) :
    ∀ k ∈ t.instances, k.value.toNat < t.next_id.toNat := by
  have hsucc : (r.next_id + 1).toNat = r.next_id.toNat + 1 := by
    rw [UInt64.toNat_add, UInt64.toNat_one, Nat.mod_eq_of_lt hroom]
  intro k hk
  cases h with
  | kept h =>
    rw [h.next_id]
    exact hbelow k (h.holds .inst k.value hk)
  | named K v hop hv h =>
    rw [h.next_id]
    rcases h.holds .inst k.value hk with hold | ⟨rfl, rfl⟩
    · exact hbelow k hold
    · exact absurd (hzero _ hop) hv
  | assigned K _ h =>
    rw [h.next_id, hsucc]
    rcases h.holds .inst k.value hk with hold | ⟨rfl, hv⟩
    · exact (hbelow k hold).trans (Nat.lt_succ_self _)
    · rw [hv]
      exact Nat.lt_succ_self _

end Registry

namespace Coordinator

variable {c c' : Coordinator} {conn : ℕ} {scan : List ServiceInstanceId} {payload : Text} {m : Message}
  {op : AuthorityEnvelope → Op} {a : Traffic}

/-- What the sessions and the instances say of the boots, whatever the clients send. -/
structure Hosts (c : Coordinator) : Prop where
  reachable : c.registry.Reachable
  book : c.registry.Bookkept
  epoch : c.epoch = c.registry.authority.epoch
  numbered : ∀ k ∈ c.registry.instances, k.value.toNat < c.registry.next_id.toNat
  session : ∀ conn, (c.sessions conn).has_worker = true → c.registry.Runs (c.sessions conn).worker (c.sessions conn).boot
  hosted : ∀ (k : ServiceInstanceId) (inst : ServiceInstance), c.registry.instances[k]? = some inst →
    c.registry.Runs inst.worker inst.boot ∧ inst.lease.value = 0

theorem start_instances (k : ServiceInstanceId) : start.registry.instances[k]? = none := by
  simp [start, Registry.begin_coordinator_epoch, Registry.fresh_instances]

theorem hosts_start : start.Hosts where
  reachable := Fleet.reachable_exec (.refl _) (.refl _) .begin_coordinator_epoch
  book := Registry.bookkept_of_cleared rfl rfl rfl
  epoch := rfl
  numbered k hk := by
    obtain ⟨_, hi⟩ := Registry.exists_of_holds hk
    rw [start_instances] at hi
    cases hi
  session _ h := by cases h
  hosted k inst hi := by
    rw [start_instances] at hi
    cases hi

/-- An instance that a line registers is hosted by the session, without an id. -/
theorem Reads.registers (hread : c.Reads conn payload m) (h : m.mutation (c.sessions conn) = some op) (env : AuthorityEnvelope) :
    (∀ v, (op env).names = some (.inst, v) → v = 0) ∧ ∀ new, (op env).newInstance = some new →
      (c.sessions conn).has_worker = true ∧ new.worker = (c.sessions conn).worker ∧ new.boot = (c.sessions conn).boot ∧
        new.lease.value = 0 := by
  have hanonymous := hread.anonymous
  cases m with
  | REG_IN inst =>
    cases h
    refine ⟨fun v hv => ?_, fun new hnew => ?_⟩
    · obtain rfl := (Prod.mk.inj (Option.some.inj hv)).2
      exact hanonymous.2.1
    · obtain rfl := Option.some.inj hnew
      exact ⟨hanonymous.1, rfl, rfl, hanonymous.2.2⟩
  | HELLO _ | PING | QUERY _ => cases h
  | _ =>
    cases h
    refine ⟨fun v hv => ?_, fun new hnew => ?_⟩
    · cases hv
    · cases hnew

/-- A call, but for a new epoch, keeps what is known of the boots where it keeps who runs
what and registers only for a boot that runs. -/
theorem Hosts.called (h : c.Hosts) (hroom : c.Roomy a) (hscan : scan.Perm c.registry.instances.keys) {op : Op}
    (himage : op.class ≠ .image) (hepoch : op ≠ .begin_coordinator_epoch)
    (hzero : ∀ v, op.names = some (.inst, v) → v = 0) {t : Registry} (ht : (c.registry.exec scan op).2 = t)
    (hbook : t.Bookkept) (hruns : ∀ w b, c.registry.Runs w b → t.Runs w b)
    (hnew : ∀ new, op.newInstance = some new → t.Runs new.worker new.boot ∧ new.lease.value = 0) {sessions : ℕ → Session}
    (hsession : ∀ d, (sessions d).has_worker = true → t.Runs (sessions d).worker (sessions d).boot) :
    Hosts { registry := t, epoch := c.epoch, sessions := sessions } := by
  subst ht
  refine ⟨Fleet.reachable_exec h.reachable hscan op, hbook, h.epoch.trans (c.registry.exec_epoch scan himage hepoch).symm,
    (c.registry.exec_numbers scan op himage).below hroom.2 hzero h.numbered, hsession, fun k inst hi => ?_⟩
  -- no call moves an instance to another boot, so its host is an old one or the new one
  rcases (c.registry.exec_change scan op himage k).host hi with ⟨old, hold, hhost⟩ | ⟨new, hop, hhost⟩ <;>
    (simp only [ServiceInstance.host, Prod.mk.injEq] at hhost
     rw [hhost.1, hhost.2.1, hhost.2.2])
  · exact ⟨hruns _ _ (h.hosted k old hold).1, (h.hosted k old hold).2⟩
  · exact hnew new hop

theorem Hosts.mutated (h : c.Hosts) (hroom : c.Roomy a) (hread : c.Reads conn payload m)
    (hop : m.mutation (c.sessions conn) = some op) (hscan : scan.Perm c.registry.instances.keys) :
    Hosts { c with registry := (c.registry.exec scan (op (c.envelope conn))).2 } := by
  have hclass := mutation_class hop (c.envelope conn)
  have himage : (op (c.envelope conn)).class ≠ .image := by rcases hclass with hc | hc <;> simp [hc]
  have hincarnation : (op (c.envelope conn)).class ≠ .incarnation := by rcases hclass with hc | hc <;> simp [hc]
  have hepoch : op (c.envelope conn) ≠ .begin_coordinator_epoch := fun he => hincarnation (by rw [he]; rfl)
  obtain ⟨hsame, hnext⟩ := c.registry.exec_incarnations scan _ hincarnation himage
  obtain ⟨hzero, hregisters⟩ := hread.registers hop (c.envelope conn)
  have hruns : ∀ w b, c.registry.Runs w b → (c.registry.exec scan (op (c.envelope conn))).2.Runs w b := fun w b hrun =>
    hrun.same hsame hnext
  refine h.called hroom hscan himage hepoch hzero rfl (h.book.same hsame hnext) hruns (fun new hnew => ?_)
    fun d hd => hruns _ _ (h.session d hd)
  obtain ⟨hworker, hw, hb, hlease⟩ := hregisters new hnew
  rw [hw, hb]
  exact ⟨hruns _ _ (h.session conn hworker), hlease⟩

theorem Hosts.greeted (h : c.Hosts) (hroom : c.Roomy a) (worker : WorkerId) : (c.handle conn scan (.HELLO worker)).Hosts := by
  have hhandle : c.handle conn scan (.HELLO worker) =
      { registry := (c.registry.adopt_worker worker).2, epoch := c.epoch,
        sessions := Function.update c.sessions conn
          { worker := worker, boot := (c.registry.adopt_worker worker).1, has_worker := true } } := rfl
  have hexec : (c.registry.exec c.registry.instances.keys (.adopt_worker worker)).2 = (c.registry.adopt_worker worker).2 := rfl
  have himage : (Op.adopt_worker worker).class ≠ .image := by simp [Op.class]
  have hruns : ∀ w b, c.registry.Runs w b → (c.registry.adopt_worker worker).2.Runs w b := fun w b hrun =>
    hrun.adopt h.book hroom.1 worker
  rw [hhandle]
  refine h.called hroom (.refl _) himage (by simp) (fun v hv => by cases hv) hexec (h.book.adopt hroom.1 worker) hruns
    (fun new hnew => by cases hnew) fun d hd => ?_
  by_cases hdc : d = conn
  · subst hdc
    rw [Function.update_self]
    exact Registry.runs_adopted h.book hroom.1 worker
  · rw [Function.update_of_ne hdc] at hd ⊢
    exact hruns _ _ (h.session d hd)

theorem Hosts.closed (h : c.Hosts) (hroom : c.Roomy a) (conn : ℕ) : (c.close conn).Hosts := by
  have hknown : ∀ d, ((c.close conn).sessions d).has_worker = (c.sessions d).has_worker ∧
      ((c.close conn).sessions d).worker = (c.sessions d).worker ∧ ((c.close conn).sessions d).boot = (c.sessions d).boot := by
    intro d
    by_cases hd : d = conn <;> simp [close, hd]
  have hsession : (∀ w b, c.registry.Runs w b → (c.close conn).registry.Runs w b) →
      ∀ d, ((c.close conn).sessions d).has_worker = true →
        (c.close conn).registry.Runs ((c.close conn).sessions d).worker ((c.close conn).sessions d).boot := by
    intro hruns d hd
    rw [(hknown d).1] at hd
    rw [(hknown d).2.1, (hknown d).2.2]
    exact hruns _ _ (h.session d hd)
  by_cases hworker : (c.sessions conn).has_worker = true
  · have hexec : (c.registry.exec c.registry.instances.keys (.mark_worker_died (c.sessions conn).boot)).2 =
      (c.close conn).registry := (if_pos hworker).symm
    have himage : (Op.mark_worker_died (c.sessions conn).boot).class ≠ .image := by simp [Op.class]
    have hbook : (c.close conn).registry.Bookkept := by
      rw [← hexec]
      exact h.book.revoke _
    have hruns : ∀ w b, c.registry.Runs w b → (c.close conn).registry.Runs w b := by
      rw [← hexec]
      exact fun w b hrun => hrun.revoke h.book _
    exact h.called hroom (.refl _) himage (by simp) (fun v hv => by cases hv) hexec hbook hruns
      (fun new hnew => by cases hnew) (hsession hruns)
  · have hkept : (c.close conn).registry = c.registry := if_neg hworker
    have hsessions := hsession (by rw [hkept]; exact fun w b hrun => hrun)
    rw [hkept] at hsessions
    have hhosts : Hosts { registry := c.registry, epoch := c.epoch, sessions := (c.close conn).sessions } :=
      ⟨h.reachable, h.book, h.epoch, h.numbered, hsessions, h.hosted⟩
    rw [← hkept] at hhosts
    exact hhosts

theorem Hosts.step (h : c.Hosts) (hs : Guarded Takes Roomy c a c') : c'.Hosts := by
  obtain ⟨htakes, hroom⟩ := hs
  cases htakes with
  | close _ => exact h.closed hroom _
  | line _ hscan _ hp =>
    rcases process_cases hp with ⟨rfl, _⟩ | ⟨m, hread, rfl⟩
    · exact h
    · rcases hop : m.mutation (c.sessions _) with _ | op
      · rcases handle_other hop with ⟨worker, rfl⟩ | hsame
        · exact h.greeted hroom worker
        · rw [hsame]
          exact h
      · rw [hread.mutates hop]
        exact h.mutated hroom hread hop hscan

/-! ## What a query lists -/

/-- The query that a line makes. -/
def asked (name : Text) : RegistryQuery := { service_kind := service_kind_from_string ((split name ','.toUInt8).headD []) }

/-- A query for the name lists the instance, however the table is walked. -/
def Lists (c : Coordinator) (name : Text) (k : ServiceInstanceId) : Prop :=
  ∀ scan, scan.Perm c.registry.instances.keys → k ∈ (c.registry.query scan (asked name)).rankedIds

end Coordinator

namespace Registry

open Coordinator

variable {r t : Registry} {name : Text} {k : ServiceInstanceId} {inst old : ServiceInstance} {env : AuthorityEnvelope}
  {scan : List ServiceInstanceId}

/-- What a query by the kind of service asks of an instance without a lease. -/
structure Listed (r : Registry) (name : Text) (inst : ServiceInstance) : Prop where
  kind : ∃ svc, r.services[inst.service_id]? = some svc ∧
    ((asked name).service_kind ≠ ServiceKind.UNKNOWN → svc.kind = (asked name).service_kind)
  current : inst.lifecycle ≠ Lifecycle.STALE ∧ historical inst.lifecycle = false
  live : r.authority.is_boot_live inst.boot = true
  fresh : inst.freshness = Freshness.CURRENT
  reached : reachability_meets inst.reachability Reachability.REACHABLE = true

theorem Listed.congr (hs : t.services[inst.service_id]? = r.services[inst.service_id]?)
    (hlive : t.authority.is_boot_live inst.boot = r.authority.is_boot_live inst.boot) :
    t.Listed name inst ↔ r.Listed name inst := by
  constructor <;> rintro ⟨hkind, hcurrent, hboot, hfresh, hreached⟩
  · exact ⟨hs ▸ hkind, hcurrent, hlive ▸ hboot, hfresh, hreached⟩
  · exact ⟨hs ▸ hkind, hcurrent, hlive ▸ hboot, hfresh, hreached⟩

/-- Where only the service may have changed, its kind decides. -/
theorem Listed.service_iff (h : r.Listed name inst) {svc : ServiceDescriptor} (hs : t.services[inst.service_id]? = some svc)
    (hlive : t.authority.is_boot_live inst.boot = r.authority.is_boot_live inst.boot) :
    t.Listed name inst ↔
      ((asked name).service_kind ≠ ServiceKind.UNKNOWN → svc.kind = (asked name).service_kind) := by
  constructor
  · rintro ⟨⟨svc', hs', hkind⟩, _⟩
    obtain rfl := Option.some.inj (hs.symm.trans hs')
    exact hkind
  · exact fun hkind => ⟨⟨svc, hs, hkind⟩, h.current, hlive.trans h.live, h.fresh, h.reached⟩

theorem not_historical_iff {l : Enum Lifecycle} : historical l = false ↔ l ≠ Lifecycle.SUPERSEDED ∧
    l ≠ Lifecycle.TOMBSTONED ∧ l ≠ Lifecycle.RETIRED ∧ l ≠ Lifecycle.INVALIDATED := by
  simp [historical, and_assoc]

theorem passes_asked_iff {svc : ServiceDescriptor} (hlease : inst.lease.value = 0) :
    r.Passes (asked name) inst svc ↔ (inst.lifecycle ≠ Lifecycle.STALE ∧ historical inst.lifecycle = false) ∧
      r.authority.is_boot_live inst.boot = true ∧ inst.freshness = Freshness.CURRENT ∧
      reachability_meets inst.reachability Reachability.REACHABLE = true := by
  have hfresh : freshness_meets inst.freshness Freshness.CURRENT = true ↔ inst.freshness = Freshness.CURRENT := by
    simp [freshness_meets]
  rw [passes_iff, not_historical_iff]
  constructor
  · rintro ⟨he, _⟩
    exact ⟨⟨he.stale, (he.current rfl).1, he.tombstoned, (he.current rfl).2, he.invalidated⟩, he.live, hfresh.1 he.freshness,
      he.reachability⟩
  · rintro ⟨⟨hstale, hsuperseded, htombstoned, hretired, hinvalidated⟩, hlive, hcurrent, hreached⟩
    refine ⟨⟨hstale, hinvalidated, htombstoned, fun _ => ⟨hsuperseded, hretired⟩, hlive, hfresh.2 hcurrent, rfl, rfl, hreached,
      .inl hlease, by simp [asked], fun _ _ => ⟨fun h => absurd rfl h, fun h => absurd rfl h, fun h => absurd rfl h⟩,
      fun h => absurd h (by simp [asked]), fun h => absurd h (by simp [asked])⟩, fun h => absurd rfl h.1⟩

/-! ## What the calls leave under an id -/

theorem inst_services (r : Registry) (scan : List ServiceInstanceId) {op : Op} (hc : op.class = .inst) :
    (r.exec scan op).2.services = r.services := by
  have h := r.exec_writes scan op
  rw [hc] at h
  obtain ⟨_, _, _, _, _, _, _, _, _, _, _, _, h⟩ := h
  rw [h]

/-- A newer registration of a service takes the place of the stored one. -/
theorem register_service_at {svc stored : ServiceDescriptor} {id : ServiceId} (hid : r.services[id]? = some stored) :
    (r.register_service svc env).2.services[id]? =
      some (if r.Accepts env ∧ svc.service_id = id ∧ stored.generation < svc.generation then svc else stored) := by
  rw [register_service, Outcome.void_snd]
  refine registerRecord_rule services_ (P := fun o => o.2.services[id]? = _) (fun _ ha => ?rejected)
    (fun _ current hcurrent hgen _ => ?repeated) (fun _ current hcurrent hle => ?stale)
    (fun ha current hcurrent hlt => ?replaced) (fun _ hnone _ _ => ?fenced) fun _ hnone _ => ?inserted
  case rejected => rw [if_neg fun h => ha h.1, hid]
  case repeated =>
    rw [if_neg, hid]
    rintro ⟨_, rfl, hlt⟩
    obtain rfl := Option.some.inj (hid.symm.trans hcurrent)
    exact hlt.ne' hgen
  case stale =>
    rw [if_neg]
    · exact hid
    rintro ⟨_, rfl, hlt⟩
    obtain rfl := Option.some.inj (hid.symm.trans hcurrent)
    exact hlt.not_ge hle
  case replaced =>
    have htable := services_lawful.table_commit svc (services_.replace current svc r)
    refine (congrArg (·[id]?) htable).trans ?_
    rcases getElem?_insert_cases r.services svc.service_id id svc with ⟨rfl, h⟩ | ⟨hne, h⟩
    · obtain rfl := Option.some.inj (hid.symm.trans hcurrent)
      rw [if_pos ⟨ha, rfl, hlt⟩]
      exact h
    · rw [if_neg fun hif => hne hif.2.1]
      exact h.trans hid
  case fenced =>
    rw [if_neg]
    · exact hid
    rintro ⟨_, rfl, _⟩
    cases hid.symm.trans hnone
  case inserted =>
    have hne : svc.service_id ≠ id := by
      rintro rfl
      cases hid.symm.trans hnone
    have htable := services_lawful.table_commit svc (services_.insert svc r)
    refine (congrArg (·[id]?) htable).trans ?_
    rw [if_neg fun hif => hne hif.2.1]
    rcases getElem?_insert_cases r.services svc.service_id id svc with ⟨heq, _⟩ | ⟨_, h⟩
    · exact absurd heq hne
    · exact h.trans hid

/-- A registration marks the current instance of its service, if it is newer. -/
theorem register_instance_at {new : ServiceInstance} (hk : r.instances[k]? = some old) (hne : k ≠ r.assignedId new) :
    (r.register_instance scan new env).2.instances[k]? =
      some (if (r.Accepts env ∧ new.service_id ∈ r.services) ∧ r.currentInstance scan new.service_id = some (k, old) ∧
        old.instance_generation < new.instance_generation then { old with lifecycle := Lifecycle.SUPERSEDED } else old) := by
  refine register_instance_rule (P := fun o => o.2.instances[k]? = _) (fun _ ha => ?rejected) (fun _ hs _ => ?unregistered)
    (fun _ _ id current hc hgen _ => ?repeated) (fun _ _ id current hc hle _ _ => ?stale)
    (fun ha hs id current hc hlt => ?superseded) (fun _ _ hc _ _ => ?fenced) fun _ _ hc _ => ?first
  case rejected => rw [if_neg fun h => ha h.1.1, hk]
  case unregistered => rw [if_neg fun h => hs h.1.2, hk]
  case repeated =>
    rw [if_neg]
    · exact hk
    rintro ⟨_, hcurrent, hlt⟩
    obtain ⟨rfl, rfl⟩ := Prod.mk.inj (Option.some.inj (hc.symm.trans hcurrent))
    exact hlt.ne' hgen
  case stale =>
    rw [if_neg]
    · exact hk
    rintro ⟨_, hcurrent, hlt⟩
    obtain ⟨rfl, rfl⟩ := Prod.mk.inj (Option.some.inj (hc.symm.trans hcurrent))
    exact hlt.not_ge hle
  case superseded =>
    -- the new instance has an id of its own, so under `k` only the mark is written
    rcases bindInstance_spares ({ r with next_id := r.assignedNext new }.supersedeCurrent id current)
      { new with instance_id := r.assignedId new } k with h | ⟨heq, _⟩
    · refine h.trans ?_
      rcases getElem?_insert_cases r.instances id k { current with lifecycle := Lifecycle.SUPERSEDED } with
        ⟨rfl, hsup⟩ | ⟨hother, hkept⟩
      · obtain rfl := Option.some.inj (hk.symm.trans (currentInstance_some hc).1)
        rw [if_pos ⟨⟨ha, hs⟩, hc, hlt⟩]
        exact hsup
      · rw [if_neg]
        · exact hkept.trans hk
        rintro ⟨_, hcurrent, _⟩
        exact hother (Prod.mk.inj (Option.some.inj (hc.symm.trans hcurrent))).1
    · exact absurd heq hne
  case fenced =>
    rw [if_neg]
    · exact hk
    rintro ⟨_, hcurrent, _⟩
    cases hc.symm.trans hcurrent
  case first =>
    rw [if_neg]
    · rcases bindInstance_spares { r with next_id := r.assignedNext new } { new with instance_id := r.assignedId new } k with
        h | ⟨heq, _⟩
      · exact h.trans hk
      · exact absurd heq hne
    rintro ⟨_, hcurrent, _⟩
    cases hc.symm.trans hcurrent

/-- An accepted update of the instance classifies it again. -/
theorem updateInstance_at {id : ServiceInstanceId} {write : ServiceInstance → ServiceInstance} {stale : RegistryError}
    (hk : r.instances[k]? = some old) : (r.updateInstance id write stale env).2.instances[k]? =
      some (if r.Accepts env ∧ id = k ∧ generation_is_current_generation env old = true
        then r.reclassify_lifecycle (write old) else old) := by
  refine updateInstance_rule (P := fun o => o.2.instances[k]? = _) (fun _ ha => ?rejected) (fun _ hnone _ => ?unknown)
    (fun _ stored hstored hgen => ?superseded) fun ha stored hstored hgen => ?updated
  case rejected => rw [if_neg fun h => ha h.1, hk]
  case unknown =>
    rw [if_neg, hk]
    rintro ⟨_, rfl, _⟩
    cases hk.symm.trans hnone
  case superseded =>
    rw [if_neg]
    · exact hk
    rintro ⟨_, rfl, hcurrent⟩
    obtain rfl := Option.some.inj (hk.symm.trans hstored)
    rw [hgen] at hcurrent
    cases hcurrent
  case updated =>
    rcases getElem?_insert_cases r.instances id k (r.reclassify_lifecycle (write stored)) with ⟨rfl, h⟩ | ⟨hne, h⟩
    · obtain rfl := Option.some.inj (hk.symm.trans hstored)
      rw [if_pos ⟨ha, rfl, hgen⟩]
      exact h
    · rw [if_neg fun hif => hne hif.2.1]
      exact h.trans hk

/-- What is listed stays listed when it is classified again, where its endpoints are reached. -/
theorem listed_reclassify_iff (h : r.Listed name old) (hlease : old.lease.value = 0) (health : Enum Health)
    (readiness : Enum Readiness) :
    r.Listed name (r.reclassify_lifecycle { old with health := health, readiness := readiness }) ↔
      reachability_meets (aggregate_reachability old r.endpoints) Reachability.REACHABLE = true := by
  constructor
  · exact fun hlisted => hlisted.reached
  · intro hreached
    refine ⟨h.kind, ?_, h.live, h.fresh, hreached⟩
    -- the exits to `STALE` are those of a dead boot, of old news and of a lease that is over
    simp only [reclassify_lifecycle, classify, h.live, h.fresh, leaseActive, hlease]
    simp only [Bool.not_true, Bool.false_eq_true, if_false, ne_eq, not_true_eq_false, decide_true, Bool.true_or]
    split_ifs <;> exact ⟨by simp, by simp [historical]⟩

end Registry

namespace Coordinator

variable {c c' : Coordinator} {conn : ℕ} {scan : List ServiceInstanceId} {payload name : Text} {m : Message}
  {op : AuthorityEnvelope → Op} {a : Traffic} {k : ServiceInstanceId} {inst new : ServiceInstance} {svc : ServiceDescriptor}

theorem Hosts.lists_iff (h : c.Hosts) :
    c.Lists name k ↔ ∃ inst, c.registry.instances[k]? = some inst ∧ c.registry.Listed name inst := by
  have hranked : ∀ scan, scan.Perm c.registry.instances.keys → (k ∈ (c.registry.query scan (asked name)).rankedIds ↔
      ∃ inst, c.registry.instances[k]? = some inst ∧ c.registry.Listed name inst) := by
    intro scan hscan
    rw [Registry.mem_rankedIds (wellKeyed_reachable h.reachable) hscan]
    constructor
    · rintro ⟨inst, svc, hc, hp⟩
      obtain ⟨hcurrent, hlive, hfresh, hreached⟩ := (Registry.passes_asked_iff (h.hosted k inst hc.stored).2).1 hp
      exact ⟨inst, hc.stored, ⟨svc, hc.registered, hc.service_kind⟩, hcurrent, hlive, hfresh, hreached⟩
    · rintro ⟨inst, hi, ⟨svc, hsvc, hkind⟩, hcurrent, hlive, hfresh, hreached⟩
      exact ⟨inst, svc, ⟨hi, hsvc, fun hid => absurd rfl hid, hkind⟩,
        (Registry.passes_asked_iff (h.hosted k inst hi).2).2 ⟨hcurrent, hlive, hfresh, hreached⟩⟩
  exact ⟨fun hl => (hranked _ (.refl _)).1 (hl _ (.refl _)), fun hi scan hscan => (hranked scan hscan).2 hi⟩

/-! ## What takes an instance out -/

/-- A message takes the instance out of the answers for the name. -/
def Ousts (c : Coordinator) (conn : ℕ) (scan : List ServiceInstanceId) (name : Text) (k : ServiceInstanceId)
    (inst : ServiceInstance) : Message → Prop
  | .HELLO worker => worker = inst.worker
  | .REG_IN new => c.registry.Accepts (c.envelope conn) ∧
      c.registry.currentInstance scan new.service_id = some (k, inst) ∧ inst.instance_generation < new.instance_generation
  | .REG_SV svc => c.registry.Accepts (c.envelope conn) ∧ svc.service_id = inst.service_id ∧
      (∃ old, c.registry.services[svc.service_id]? = some old ∧ old.generation < svc.generation) ∧
      (asked name).service_kind ≠ ServiceKind.UNKNOWN ∧ svc.kind ≠ (asked name).service_kind
  | .UH id _ generation | .UR id _ generation => c.registry.Accepts (c.envelope conn) ∧ id = k ∧
      (generation.value = 0 ∨ generation = inst.instance_generation) ∧
      reachability_meets (Registry.aggregate_reachability inst c.registry.endpoints) Reachability.REACHABLE = false
  | _ => False

/-- What is next takes the stored instance out of the answers for the name. -/
def Removes (c : Coordinator) (name : Text) (k : ServiceInstanceId) : Traffic → Prop
  | .line conn scan payload => ∃ m inst, c.Reads conn payload m ∧ c.registry.instances[k]? = some inst ∧
      c.Ousts conn scan name k inst m
  | .close conn => ∃ inst, c.registry.instances[k]? = some inst ∧ (c.sessions conn).has_worker = true ∧
      (c.sessions conn).boot = inst.boot

/-- The instance under the id, whatever is stored there, is listed. -/
def Found (r : Registry) (name : Text) (k : ServiceInstanceId) : Prop := ∃ inst, r.instances[k]? = some inst ∧ r.Listed name inst

section
variable {t : Registry}

theorem found_iff {x : ServiceInstance} (hx : t.instances[k]? = some x) : Found t name k ↔ t.Listed name x := by
  refine ⟨?_, fun h => ⟨x, hx, h⟩⟩
  rintro ⟨y, hy, hlisted⟩
  obtain rfl := Option.some.inj (hx.symm.trans hy)
  exact hlisted

/-- Among deaths only that of its own boot keeps a listed instance from being found. -/
theorem found_after_death {r : Registry} (hi : r.instances[k]? = some inst) (hl : r.Listed name inst) {op : Op}
    (hchange : Registry.Change r op t k) (hc : op.class = .incarnation) (hepoch : op ≠ .begin_coordinator_epoch)
    (hdead : ∀ b, op.Kills r b → t.authority.is_boot_live b = false) (hservices : t.services = r.services) :
    Found t name k ↔ t.authority.is_boot_live inst.boot = true := by
  -- what the death spares is found if its boot lives; the boot of what it marks is dead
  rcases hchange.death hc hepoch with hkept | ⟨old, hkill, hold, hstale⟩
  · rw [found_iff (hkept.trans hi)]
    refine ⟨fun hlisted => hlisted.live, fun hlive => ?_⟩
    exact (Registry.Listed.congr (by rw [hservices]) (hlive.trans hl.live.symm)).2 hl
  · obtain rfl := Option.some.inj (hi.symm.trans hold)
    rw [hdead _ hkill, found_iff hstale]
    exact iff_of_false (fun hlisted => absurd rfl hlisted.current.1) (by simp)

end

/-- A greeting takes out the instances of its worker. -/
theorem Hosts.found_greeted_iff (h : c.Hosts) (hroom : c.Roomy a) (hi : c.registry.instances[k]? = some inst)
    (hl : c.registry.Listed name inst) (worker : WorkerId) :
    Found (c.registry.adopt_worker worker).2 name k ↔ worker ≠ inst.worker := by
  have hrun := (h.hosted k inst hi).1
  have hservices : (c.registry.adopt_worker worker).2.services = c.registry.services := by
    obtain ⟨_, _, _, _, _, hw⟩ := c.registry.adopt_worker_writes worker
    rw [hw]
  rw [← Registry.adopt_live_iff h.book hroom.1 worker hrun hl.live]
  refine found_after_death hi hl (Registry.adopt_worker_change worker k) rfl (by simp) ?_ hservices
  rintro b ⟨hprev, hne⟩
  exact Registry.adopt_ends hprev hne

/-- The end of a connection takes out the instances of its boot. -/
theorem found_died_iff (hi : c.registry.instances[k]? = some inst) (hl : c.registry.Listed name inst) (boot : WorkerBootId) :
    Found (c.registry.mark_worker_died boot) name k ↔ boot ≠ inst.boot := by
  have hservices : (c.registry.mark_worker_died boot).services = c.registry.services := by
    obtain ⟨_, _, _, _, hw⟩ := c.registry.revoke_writes boot
    exact congrArg (·.services) hw
  have hlive : ∀ b, (c.registry.mark_worker_died boot).authority.is_boot_live b = true ↔
      b ≠ boot ∧ c.registry.authority.is_boot_live b = true := c.registry.revoke_is_boot_live boot
  rw [found_after_death hi hl (Registry.mark_worker_died_change boot k) rfl (by simp) ?_ hservices, hlive, and_iff_left hl.live]
  · exact ne_comm
  · rintro b rfl
    exact Bool.eq_false_iff.2 fun hb => ((hlive b).1 hb).1 rfl

/-- A call that changes records leaves the boots alone. -/
theorem mutation_live (hop : m.mutation (c.sessions conn) = some op) (b : WorkerBootId) :
    (c.registry.exec scan (op (c.envelope conn))).2.authority.is_boot_live b = c.registry.authority.is_boot_live b := by
  have hclass := mutation_class hop (c.envelope conn)
  obtain ⟨hsame, _⟩ := c.registry.exec_incarnations scan (op (c.envelope conn))
    (by rcases hclass with hc | hc <;> simp [hc]) (by rcases hclass with hc | hc <;> simp [hc])
  rw [RegistryAuthority.is_boot_live, RegistryAuthority.is_boot_live, hsame.live_boots]

/-- A registration of a service takes the listed instances of the service out if it is
newer, and of another kind than is asked for. -/
theorem found_service_iff (hread : c.Reads conn payload (.REG_SV svc)) (hi : c.registry.instances[k]? = some inst)
    (hl : c.registry.Listed name inst) :
    Found (c.handle conn scan (.REG_SV svc)).registry name k ↔ ¬ c.Ousts conn scan name k inst (.REG_SV svc) := by
  have hop : (Message.REG_SV svc).mutation (c.sessions conn) = some (.register_service svc) := rfl
  obtain ⟨stored, hstored, hkind⟩ := hl.kind
  have hservice : (c.registry.register_service svc (c.envelope conn)).2.services[inst.service_id]? = _ :=
    Registry.register_service_at hstored
  have hkept : (c.registry.exec scan (.register_service svc (c.envelope conn))).2.instances[k]? = some inst := by
    rw [(c.registry.exec_frame scan (by simp [Op.class])).instances (by simp [Op.class]) (by simp [Op.class])]
    exact hi
  rw [hread.mutates hop, found_iff hkept, hl.service_iff ((congrArg (·.services[inst.service_id]?)
    (Outcome.map_snd _ _)).trans hservice) (mutation_live hop _)]
  -- the instance is listed by the kind that its service now has
  by_cases hnew : c.registry.Accepts (c.envelope conn) ∧ svc.service_id = inst.service_id ∧
      stored.generation < svc.generation
  · rw [if_pos hnew]
    constructor
    · exact fun hk hout => hout.2.2.2.2 (hk hout.2.2.2.1)
    · intro hin hasks
      by_contra hne
      exact hin ⟨hnew.1, hnew.2.1, ⟨stored, hnew.2.1 ▸ hstored, hnew.2.2⟩, hasks, hne⟩
  · rw [if_neg hnew]
    refine iff_of_true hkind fun hout => hnew ⟨hout.1, hout.2.1, ?_⟩
    obtain ⟨old, hold, hlt⟩ := hout.2.2.1
    rw [hout.2.1] at hold
    obtain rfl := Option.some.inj (hstored.symm.trans hold)
    exact hlt

/-- A registration of an instance takes out the one that it supersedes. -/
theorem Hosts.found_instance_iff (h : c.Hosts) (hread : c.Reads conn payload (.REG_IN new))
    (hi : c.registry.instances[k]? = some inst) (hl : c.registry.Listed name inst) :
    Found (c.handle conn scan (.REG_IN new)).registry name k ↔ ¬ c.Ousts conn scan name k inst (.REG_IN new) := by
  obtain ⟨hosted, hhosted⟩ : ∃ x : ServiceInstance, x = { new with
    worker := (c.sessions conn).worker, boot := (c.sessions conn).boot } := ⟨_, rfl⟩
  have hop : (Message.REG_IN new).mutation (c.sessions conn) = some (.register_instance hosted) := by rw [hhosted]; rfl
  have hservice : hosted.service_id = new.service_id := by rw [hhosted]
  have hgen : hosted.instance_generation = new.instance_generation := by rw [hhosted]
  obtain ⟨stored, hstored, hkind⟩ := hl.kind
  -- the id that it is given is none that is taken
  have hfresh : k ≠ c.registry.assignedId hosted := by
    rintro rfl
    have hbelow := h.numbered _ (Registry.holds_of_getElem? hi)
    rw [Registry.assignedId, if_pos (by rw [hhosted]; exact hread.anonymous.2.1)] at hbelow
    exact lt_irrefl _ hbelow
  have hinst : (c.registry.exec scan (.register_instance hosted (c.envelope conn))).2.instances[k]? = _ :=
    (congrArg (·.instances[k]?) (Outcome.map_snd _ _)).trans (Registry.register_instance_at hi hfresh)
  rw [hservice, hgen] at hinst
  rw [hread.mutates hop, found_iff hinst]
  -- a superseded instance is historical, and a registration touches no other
  by_cases hout : c.Ousts conn scan name k inst (.REG_IN new)
  · have hown := (Registry.currentInstance_some hout.2.1).2.1
    have hmem : new.service_id ∈ c.registry.services := hown ▸ Registry.holds_of_getElem? hstored
    rw [if_pos ⟨⟨hout.1, hmem⟩, hout.2⟩]
    exact iff_of_false (fun hlisted => absurd hlisted.current.2 (by simp [Registry.historical])) (not_not.2 hout)
  · rw [if_neg fun hif => hout ⟨hif.1.1, hif.2⟩]
    refine iff_of_true ?_ hout
    refine (Registry.Listed.congr ?_ (mutation_live hop _)).2 hl
    exact congrArg (·[inst.service_id]?) (c.registry.inst_services scan rfl)

/-- An update takes the instance out if it is accepted and finds the endpoints not reached. -/
theorem Hosts.found_updated_iff (h : c.Hosts) (hi : c.registry.instances[k]? = some inst) (hl : c.registry.Listed name inst)
    (hop : m.mutation (c.sessions conn) = some op) {id : ServiceInstanceId} {write : ServiceInstance → ServiceInstance}
    (hupdates : (op (c.envelope conn)).updates = some (id, write)) {health : Enum Health} {readiness : Enum Readiness}
    (hwrite : write inst = { inst with health := health, readiness := readiness }) {stale : RegistryError}
    {env : AuthorityEnvelope}
    (hexec : (c.registry.exec scan (op (c.envelope conn))).2 = (c.registry.updateInstance id write stale env).2) :
    Found (c.registry.exec scan (op (c.envelope conn))).2 name k ↔
      ¬ (c.registry.Accepts env ∧ id = k ∧ Registry.generation_is_current_generation env inst = true ∧
        reachability_meets (Registry.aggregate_reachability inst c.registry.endpoints) Reachability.REACHABLE = false) := by
  have hinst : (c.registry.updateInstance id write stale env).2.instances[k]? = _ := Registry.updateInstance_at hi
  rw [← hexec] at hinst
  have hlisted : ∀ x : ServiceInstance,
      (c.registry.exec scan (op (c.envelope conn))).2.Listed name x ↔ c.registry.Listed name x := fun x =>
    Registry.Listed.congr (congrArg (·[x.service_id]?) (c.registry.inst_services scan (updates_class hupdates)))
      (mutation_live hop _)
  rw [found_iff hinst]
  by_cases hhit : c.registry.Accepts env ∧ id = k ∧ Registry.generation_is_current_generation env inst = true
  · rw [if_pos hhit, hwrite, hlisted, Registry.listed_reclassify_iff hl (h.hosted k inst hi).2]
    constructor
    · intro hreached hout
      rw [hreached] at hout
      cases hout.2.2.2
    · intro hin
      by_contra hnot
      exact hin ⟨hhit.1, hhit.2.1, hhit.2.2, by simpa using hnot⟩
  · rw [if_neg hhit, hlisted]
    exact iff_of_true hl fun hout => hhit ⟨hout.1, hout.2.1, hout.2.2.1⟩

theorem generation_current_iff {env : AuthorityEnvelope} {generation : ServiceInstanceGeneration} :
    Registry.generation_is_current_generation { env with service_instance_generation := generation } inst = true ↔
      generation.value = 0 ∨ generation = inst.instance_generation := by
  simp only [Registry.generation_is_current_generation]
  by_cases h0 : generation.value = 0 <;> by_cases hg : generation = inst.instance_generation <;> simp [h0, hg]

/-- A message takes a listed instance out exactly if it is one that ousts it. -/
theorem Hosts.found_handled_iff (h : c.Hosts) (hroom : c.Roomy a) (hread : c.Reads conn payload m)
    (hi : c.registry.instances[k]? = some inst) (hl : c.registry.Listed name inst) :
    Found (c.handle conn scan m).registry name k ↔ ¬ c.Ousts conn scan name k inst m := by
  -- the registrations of the other kinds of records leave instances and services alone
  have hother : ∀ {op}, m.mutation (c.sessions conn) = some op → (op (c.envelope conn)).class = .descriptor →
      DescriptorKind.service.record (op (c.envelope conn)) = none → ¬ c.Ousts conn scan name k inst m →
      (Found (c.handle conn scan m).registry name k ↔ ¬ c.Ousts conn scan name k inst m) := by
    intro op hop hc hrecord hnot
    have hkept : (c.registry.exec scan (op (c.envelope conn))).2.instances[k]? = some inst := by
      rw [(c.registry.exec_frame scan (by simp [hc])).instances (by simp [hc]) (by simp [hc])]
      exact hi
    have hservices : (c.registry.exec scan (op (c.envelope conn))).2.services = c.registry.services :=
      DescriptorKind.service.table_other c.registry scan hc hrecord
    rw [hread.mutates hop, found_iff hkept]
    exact iff_of_true ((Registry.Listed.congr (congrArg (·[inst.service_id]?) hservices) (mutation_live hop _)).2 hl) hnot
  cases m with
  | HELLO worker => exact h.found_greeted_iff hroom hi hl worker
  | PING | QUERY _ => exact iff_of_true ⟨inst, hi, hl⟩ id
  | REG_RT _ | REG_EP _ | REG_CA _ => exact hother rfl rfl rfl id
  | REG_SV svc => exact found_service_iff hread hi hl
  | REG_IN new => exact h.found_instance_iff hread hi hl
  | UH id health generation =>
    have hop : (Message.UH id health generation).mutation (c.sessions conn) =
      some fun env => .update_health id health { env with service_instance_generation := generation } := rfl
    have hwrite : { inst with health := health } = { inst with health := health, readiness := inst.readiness } := rfl
    rw [hread.mutates hop, h.found_updated_iff hi hl hop rfl hwrite (Outcome.map_snd _ _), generation_current_iff]
    rfl
  | UR id readiness generation =>
    have hop : (Message.UR id readiness generation).mutation (c.sessions conn) =
      some fun env => .update_readiness id readiness { env with service_instance_generation := generation } := rfl
    have hwrite : { inst with readiness := readiness } = { inst with health := inst.health, readiness := readiness } := rfl
    rw [hread.mutates hop, h.found_updated_iff hi hl hop rfl hwrite (Outcome.map_snd _ _), generation_current_iff]
    rfl

/-- What comes next takes a listed instance out exactly if it removes it. -/
theorem Hosts.lists_step_iff (h : c.Hosts) (hs : Guarded Takes Roomy c a c') (hl : c.Lists name k) :
    c'.Lists name k ↔ ¬ c.Removes name k a := by
  rw [(h.step hs).lists_iff]
  obtain ⟨inst, hi, hlisted⟩ := h.lists_iff.1 hl
  have hsame : ∀ {x : ServiceInstance}, c.registry.instances[k]? = some x → x = inst := fun hx =>
    Option.some.inj (hx.symm.trans hi)
  obtain ⟨htakes, hroom⟩ := hs
  cases htakes with
  | @close conn _ =>
    by_cases hworker : (c.sessions conn).has_worker = true
    · have hdied : (c.close conn).registry = c.registry.mark_worker_died (c.sessions conn).boot := if_pos hworker
      rw [hdied]
      refine (found_died_iff hi hlisted _).trans (not_congr ⟨fun hboot => ⟨inst, hi, hworker, hboot⟩, ?_⟩)
      rintro ⟨x, hx, _, hboot⟩
      rw [hboot, hsame hx]
    · have hkept : (c.close conn).registry = c.registry := if_neg hworker
      rw [hkept]
      refine iff_of_true ⟨inst, hi, hlisted⟩ ?_
      rintro ⟨_, _, hknown, _⟩
      exact hworker hknown
  | line _ hscan _ hp =>
    rcases process_cases hp with ⟨rfl, hnone⟩ | ⟨m, hread, rfl⟩
    · refine iff_of_true ⟨inst, hi, hlisted⟩ ?_
      rintro ⟨m, _, hread, _⟩
      exact hnone m hread
    · refine (h.found_handled_iff hroom hread hi hlisted).trans (not_congr ⟨fun hout => ⟨m, inst, hread, hi, hout⟩, ?_⟩)
      rintro ⟨m', x, hread', hx, hout⟩
      obtain rfl := hread.unique hread'
      exact hsame hx ▸ hout

/-- Whatever clients send, a query finds an instance at every point of a run exactly if it
finds it at the start and nothing of the run removes it. -/
theorem listed_throughout_iff (h : Lib.Reachable (Guarded Takes Roomy) start c) {as : List Traffic}
    (hrun : Run (Guarded Takes Roomy) c as c') (name : Text) (k : ServiceInstanceId) :
    (Run (Guarded (Guarded Takes Roomy) fun s _ => s.Lists name k) c as c' ∧ c'.Lists name k) ↔
      c.Lists name k ∧ Run (Guarded (Guarded Takes Roomy) fun s a => ¬ s.Removes name k a) c as c' := by
  have hhosts : c.Hosts := h.inv Hosts hosts_start fun _ _ _ hs hst => hs.step hst
  exact hrun.throughout_iff (fun _ _ _ hs hst => hs.step hst) (fun _ _ _ _ hst hst' => hst.1.unique hst'.1)
    (fun _ _ _ hs hst hl => hs.lists_step_iff hst hl) hhosts

/-- The coordinator when the first worker has sent so many lines. -/
def scripted (n : ℕ) : Coordinator :=
  ((Fleet.restarted 0).messages.take n).foldl (fun c m => c.handle 0 c.registry.instances.keys m) start

theorem scripted_step {n : ℕ} (hn : n < 6) : ∃ a, Guarded Takes Roomy (scripted n) a (scripted (n + 1)) := by
  have hready : ∀ n < 6, ((scripted n).sessions 0).closed = false ∧
      (n ≠ 0 → ((scripted n).sessions 0).has_worker = true) ∧
      (scripted n).registry.next_boot.toNat + 1 < 2 ^ 64 ∧ (scripted n).registry.next_id.toNat + 1 < 2 ^ 64 := by
    decide +kernel
  -- past the greeting the session knows its worker, so the script is read line by line
  obtain ⟨hopen, hworker, hroom⟩ := hready n hn
  obtain ⟨line, hline⟩ : ∃ line, (Fleet.restarted 0).script[n]? = some line := ⟨_, List.getElem?_eq_getElem hn⟩
  have hne : ∀ line ∈ (Fleet.restarted 0).script, line ≠ [] := by decide +kernel
  obtain ⟨m, hm, hread⟩ := (Fleet.restarted 0).request_script hline hworker
  have hprocess : (scripted n).process 0 (scripted n).registry.instances.keys line =
      .ok (scripted (n + 1), encode_frame ((scripted n).reply 0 (scripted n).registry.instances.keys m)) := by
    have hnext : scripted (n + 1) = (scripted n).handle 0 (scripted n).registry.instances.keys m := by
      rw [scripted, List.take_add_one, hm, List.foldl_append]
      rfl
    rw [process, hread, hnext]
  exact ⟨_, .line hopen (.refl _) (hne line (List.mem_of_getElem? hline)) hprocess, hroom⟩

theorem scripted_reachable {n : ℕ} (hn : n ≤ 6) : Lib.Reachable (Guarded Takes Roomy) start (scripted n) := by
  induction n with
  | zero => exact .refl _
  | succ n ih =>
    obtain ⟨a, hstep⟩ := scripted_step hn
    exact (ih (Nat.le_of_succ_le hn)).run (.single hstep)

/-- The instance of the worker that has got through is listed until its connection closes. -/
theorem listed_throughout_iff_closed : (scripted 6).Lists (text "MODEL_SERVER") ⟨1⟩ ∧
    ¬ ((scripted 6).close 0).Lists (text "MODEL_SERVER") ⟨1⟩ := by
  have hreach := scripted_reachable (le_refl 6)
  have hhosts : (scripted 6).Hosts := hreach.inv Hosts hosts_start fun _ _ _ hs hst => hs.step hst
  obtain ⟨inst, hi⟩ : ∃ inst, (scripted 6).registry.instances[(⟨1⟩ : ServiceInstanceId)]? = some inst :=
    Option.isSome_iff_exists.1 (by decide +kernel)
  have hstored : ∀ inst ∈ (scripted 6).registry.instances[(⟨1⟩ : ServiceInstanceId)]?,
      ((scripted 6).registry.services[inst.service_id]?.map (·.kind)) = some ServiceKind.MODEL_SERVER ∧
      (inst.lifecycle ≠ Lifecycle.STALE ∧ Registry.historical inst.lifecycle = false) ∧
      (scripted 6).registry.authority.is_boot_live inst.boot = true ∧ inst.freshness = Freshness.CURRENT ∧
      reachability_meets inst.reachability Reachability.REACHABLE = true ∧ ((scripted 6).sessions 0).boot = inst.boot := by
    decide +kernel
  obtain ⟨hkind, hcurrent, hlive, hfresh, hreached, hboot⟩ := hstored inst hi
  obtain ⟨svc, hsvc, hsame⟩ := Option.map_eq_some_iff.1 hkind
  have hlisted : (scripted 6).Lists (text "MODEL_SERVER") ⟨1⟩ :=
    hhosts.lists_iff.2 ⟨inst, hi, ⟨svc, hsvc, fun _ => hsame.trans (by decide +kernel)⟩, hcurrent, hlive, hfresh, hreached⟩
  have hstep : Guarded Takes Roomy (scripted 6) (.close 0) ((scripted 6).close 0) :=
    ⟨.close (by decide +kernel), by decide +kernel, by decide +kernel⟩
  have hiff := listed_throughout_iff hreach (.single hstep) (text "MODEL_SERVER") ⟨1⟩
  -- if it were still listed, the end of the connection would not remove it
  refine ⟨hlisted, fun hafter => ?_⟩
  obtain ⟨_, hkept⟩ := hiff.1 ⟨.single ⟨hstep, hlisted⟩, hafter⟩
  cases hkept with
  | cons hclose _ =>
    exact hclose.2 ⟨inst, hi, by decide +kernel, hboot⟩

end Coordinator

end RuntimeRegistry
