import RuntimeRegistry.Queries
import RuntimeRegistry.Snapshots
import RuntimeRegistry.Stocks
/-!
# The coordinator and its workers

Workers connect, send the lines of their scripts and vanish, and a worker may be started
again with the same id and a higher generation, before or after its predecessor is seen
to be gone. In every interleaving each worker gets through its script unless a later one
takes its place, and a query finds one instance for each worker that has got through it
and is there, and no other.
-/
open Lib

namespace RuntimeRegistry

open Worker

/-- The coordinator, and how many lines the worker at each connection has sent. -/
structure Fleet where
  system : System := .start
  sent : ℕ → ℕ := fun _ => 0

namespace Fleet

variable (crew : ℕ → Worker) (f : Fleet)

abbrev coordinator : Coordinator := f.system.coordinator

abbrev registry : Registry := f.system.coordinator.registry

/-- The line that the worker at the connection sends next. -/
def nextLine (conn : ℕ) : Option Text := (crew conn).script[f.sent conn]?

/-- The ledger of the answered HELLOs, once the line is answered. -/
def ledger (conn : ℕ) : List Grant :=
  if f.sent conn = 0 then ⟨(f.registry.adopt_worker ⟨(crew conn).id⟩).1, conn, ⟨(crew conn).id⟩⟩ :: f.system.granted
  else f.system.granted

inductive Move
  | line (conn : ℕ) (scan : List ServiceInstanceId)
  | query (conn : ℕ) (scan : List ServiceInstanceId) (kind : Text)
  | close (conn : ℕ)

/-- A worker sends its next line, or asks for a kind of service, or its connection closes. -/
inductive Step : Fleet → Move → Fleet → Prop
  | line {f : Fleet} {conn : ℕ} {scan : List ServiceInstanceId} {line : Text} {c : Coordinator} {reply : List UInt8}
    (isOpen : (f.coordinator.sessions conn).closed = false) (walk : scan.Perm f.registry.instances.keys)
    (next : f.nextLine crew conn = some line) (processed : f.coordinator.process conn scan line = .ok (c, reply)) :
    Step f (.line conn scan) ⟨⟨c, f.ledger crew conn⟩, Function.update f.sent conn (f.sent conn + 1)⟩
  | query {f : Fleet} {conn : ℕ} {scan : List ServiceInstanceId} {kind : Text} {c : Coordinator} {reply : List UInt8}
    (isOpen : (f.coordinator.sessions conn).closed = false) (walk : scan.Perm f.registry.instances.keys)
    (processed : f.coordinator.process conn scan (text "QUERY," ++ kind) = .ok (c, reply)) :
    Step f (.query conn scan kind) ⟨⟨c, f.system.granted⟩, f.sent⟩
  | close {f : Fleet} {conn : ℕ} (isOpen : (f.coordinator.sessions conn).closed = false) :
    Step f (.close conn) ⟨⟨f.coordinator.close conn, f.system.granted⟩, f.sent⟩

/-- A worker greets with a higher generation than the workers with its id that greeted before. -/
def Succeeding (f : Fleet) (conn : ℕ) : Prop :=
  ∀ g ∈ f.system.granted, (crew g.conn).workerId = (crew conn).workerId → (crew g.conn).generation < (crew conn).generation

/-- No counter wraps, of boots at a greeting and of ids at the last line, and generations rise. -/
def Orderly (f : Fleet) : Move → Prop
  | .line conn _ => (f.sent conn = 0 → f.registry.next_boot.toNat + 1 < 2 ^ 64 ∧ f.Succeeding crew conn) ∧
      (f.sent conn = 5 → f.registry.next_id.toNat + 1 < 2 ^ 64)
  | .query _ _ _ | .close _ => True

/-- The connection is there, and no later worker has taken the place of the one at it. -/
def Serving (g : Grant) : Prop := f.system.latest g.worker = some g ∧ (f.coordinator.sessions g.conn).closed = false

def Current (conn : ℕ) : Prop := ∃ g, f.Serving g ∧ g.conn = conn

/-- The worker has got through its script. -/
def Holding (conn : ℕ) : Prop := f.sent conn = 6 ∧ f.Current conn

/-- A worker is acknowledged, whatever it sends next, until a later one takes its place;
then it is refused and changes nothing. A query is answered with the instances of the
workers that hold. -/
structure Serves : Prop where
  acknowledged : ∀ conn scan line, (f.coordinator.sessions conn).closed = false → scan.Perm f.registry.instances.keys →
    f.nextLine crew conn = some line → f.sent conn = 0 ∨ f.Current conn →
    ∃ c ack, f.coordinator.process conn scan line = .ok (c, encode_frame ack) ∧ ack.kind = .ACK
  refused : ∀ conn scan line, (f.coordinator.sessions conn).closed = false → f.nextLine crew conn = some line →
    f.sent conn ≠ 0 → ¬ f.Current conn →
    ∃ error, f.coordinator.process conn scan line = .ok (f.coordinator, encode_frame error) ∧ error.kind = .ERROR
  discovered : ∃ id : ℕ → ServiceInstanceId,
    (∀ conn, f.Holding conn → f.registry.instances[id conn]? =
      some ((crew conn).placed (f.coordinator.sessions conn).boot (id conn))) ∧
    (∀ conn conn', f.Holding conn → f.Holding conn' → id conn = id conn' → conn = conn') ∧
    ∀ conn scan, scan.Perm f.registry.instances.keys → ∃ res : RegistryResult,
      f.coordinator.process conn scan (text "QUERY,MODEL_SERVER") =
        .ok (f.coordinator, encode_frame { kind := .QUERY_RESULT, payload := result_text res }) ∧
      res.rankedIds.Nodup ∧ ∀ k, k ∈ res.rankedIds ↔ ∃ conn, f.Holding conn ∧ id conn = k

end Fleet

/-! ## The calls behind the messages -/

/-- The call that a registration makes under the envelope of the session. -/
def Message.call (s : Session) : Message → Option (AuthorityEnvelope → Op)
  | .REG_RT rt => some (.register_runtime rt)
  | .REG_SV svc => some (.register_service svc)
  | .REG_EP ep => some (.register_endpoint ep)
  | .REG_CA cap => some (.register_capability cap)
  | .REG_IN inst => some (.register_instance { inst with worker := s.worker, boot := s.boot })
  | _ => none

namespace Coordinator

variable {c : Coordinator} {conn : ℕ} {scan : List ServiceInstanceId} {m : Message} {op : AuthorityEnvelope → Op}

theorem handle_call (h : m.call (c.sessions conn) = some op) : c.handle conn scan m = c.mutate conn scan op := by
  cases m <;> cases h <;> rfl

theorem call_class (h : m.call (c.sessions conn) = some op) (env : AuthorityEnvelope) :
    (op env).envelope = some env ∧ ((op env).class = .descriptor ∨ (op env).class = .inst) := by
  cases m <;> cases h <;> exact ⟨rfl, by simp [Op.class]⟩

theorem answer_map {α β : Type} (o : Outcome α) (k : α → β) (done : β → Text) :
    answer (o.map k) done = answer o fun a => done (k a) := by
  rcases o with ⟨_ | _, _⟩ <;> rfl

theorem answer_kind {α : Type} (o : Outcome α) (done : α → Text) : (answer o done).kind = if o.1.isOk then .ACK else .ERROR := by
  rcases o with ⟨_ | _, _⟩ <;> rfl

/-- The texts that answers are made of. -/
def Brief (t : Text) : Prop := t ≠ [] ∧ t.length ≤ 128

theorem brief_number {name : Text} (hne : name ≠ []) (hlen : name.length ≤ 10) (v : UInt64) : Brief (name ++ to_string v) := by
  have hwrite : (to_string v).length ≤ 20 := Numeral.length_write (by decide) (v.toNat_lt.trans (by decide))
  refine ⟨by simp [hne], ?_⟩
  rw [List.length_append]
  omega

def tellId (v : Reply) : Text := text "ID=" ++ to_string (match v with | .id value => value | _ => 0)

/-- The reply acknowledges the call in a few words, or is the text of what it threw. -/
theorem reply_call (h : m.call (c.sessions conn) = some op) : ∃ done : Reply → Text, (∀ v, Brief (done v)) ∧
    c.reply conn scan m = answer (c.registry.exec scan (op (c.envelope conn))) done := by
  have hok : Brief (text "OK") := ⟨by decide, by decide⟩
  cases m with
  | REG_RT rt =>
    cases h
    have hmap := answer_map (c.registry.register_runtime rt (c.envelope conn)) (fun id => Reply.id id.value) fun _ => text "OK"
    exact ⟨fun _ => text "OK", fun _ => hok, hmap.symm⟩
  | REG_SV svc =>
    cases h
    have hmap := answer_map (c.registry.register_service svc (c.envelope conn)) (fun _ => Reply.done) fun _ => text "OK"
    exact ⟨fun _ => text "OK", fun _ => hok, hmap.symm⟩
  | REG_EP ep =>
    cases h
    have hmap := answer_map (c.registry.register_endpoint ep (c.envelope conn)) (fun id => Reply.id id.value) fun _ => text "OK"
    exact ⟨fun _ => text "OK", fun _ => hok, hmap.symm⟩
  | REG_CA cap =>
    cases h
    have hmap := answer_map (c.registry.register_capability cap (c.envelope conn)) (fun id => Reply.id id.value) fun _ => text "OK"
    exact ⟨fun _ => text "OK", fun _ => hok, hmap.symm⟩
  | REG_IN inst =>
    cases h
    have hmap := answer_map (c.registry.register_instance scan { inst with
      worker := (c.sessions conn).worker, boot := (c.sessions conn).boot } (c.envelope conn))
      (fun id => Reply.id id.value) tellId
    exact ⟨tellId, fun v => brief_number (by decide) (by decide) _, hmap.symm⟩
  | _ => cases h

/-- A call under a rejected envelope is answered with the reason. -/
theorem rejected_brief {α : Type} {r : Registry} {env : AuthorityEnvelope} (h : ¬ r.Accepts env) (body : Outcome α) :
    ∃ e, r.authorized env body = (.error e, r) ∧ Brief e.message := by
  have hnumber : ∀ v : UInt64, (to_string v).length ≤ 20 := fun v =>
    Numeral.length_write (by decide) (v.toNat_lt.trans (by decide))
  have haccept : (r.validate_envelope env).accept = false := by simpa using mt Registry.validate_envelope_accept.1 h
  refine ⟨⟨(r.validate_envelope env).kind, (r.validate_envelope env).reason⟩, by simp only [Registry.authorized, haccept]; rfl, ?_⟩
  have hepoch := hnumber env.epoch.value
  have hcurrent := hnumber r.authority.epoch.value
  have hboot := hnumber env.boot.value
  have hname : (text "epoch ").length = 6 ∧ (text " is stale; current epoch ").length = 25 ∧ (text "boot ").length = 5 ∧
      (text " is not a live incarnation").length = 26 := by decide
  by_cases he : env.epoch ≠ r.authority.epoch
  · rw [Registry.validate_envelope, if_pos he]
    refine ⟨by simp [text], ?_⟩
    simp only [List.length_append]
    omega
  · by_cases hb : (!r.authority.is_boot_live env.boot) = true
    · rw [Registry.validate_envelope, if_neg he, if_pos hb]
      refine ⟨by simp [text], ?_⟩
      simp only [List.length_append]
      omega
    · rw [Registry.validate_envelope, if_neg he, if_neg hb] at haccept
      cases haccept

/-- What a call under a rejected envelope throws is told in a few words. -/
theorem exec_rejected_brief {r : Registry} {env : AuthorityEnvelope} (hop : m.call (c.sessions conn) = some op)
    (h : ¬ r.Accepts env) (scan : List ServiceInstanceId) : ∃ e, r.exec scan (op env) = (.error e, r) ∧ Brief e.message := by
  cases m with
  | REG_SV svc =>
    cases hop
    obtain ⟨e, he, hbrief⟩ := rejected_brief h _
    exact ⟨e, congrArg (fun o => Outcome.map _ (Outcome.void o)) he, hbrief⟩
  | REG_RT _ | REG_EP _ | REG_CA _ | REG_IN _ =>
    cases hop
    obtain ⟨e, he, hbrief⟩ := rejected_brief h _
    exact ⟨e, congrArg (Outcome.map _) he, hbrief⟩
  | _ => cases hop

end Coordinator

namespace Fleet

variable {crew : ℕ → Worker} {f : Fleet} {conn : ℕ} {scan : List ServiceInstanceId} {g : Grant}

/-! ## The invariant -/

/-- What the ledger, the sessions and the registry of a fleet say. -/
structure Kept (crew : ℕ → Worker) (f : Fleet) : Prop where
  system : f.system.Kept
  reachable : f.registry.Reachable
  epoch : f.coordinator.epoch = f.registry.authority.epoch
  tombstones : f.registry.tombstones = ∅
  next_id : 0 < f.registry.next_id.toNat
  greeted : ∀ conn, (∃ g ∈ f.system.granted, g.conn = conn) ↔ f.sent conn ≠ 0
  worker : ∀ g ∈ f.system.granted, g.worker = ⟨(crew g.conn).id⟩
  session : ∀ g ∈ f.system.granted, (f.coordinator.sessions g.conn).closed = false →
    f.coordinator.sessions g.conn = { worker := g.worker, boot := g.boot, has_worker := true }
  roster : Roster crew f.system.granted f.Serving
  stocked : Stocked crew f.system.granted f.Serving f.sent f.registry.next_id f.registry.shelves

theorem Serving.mem (h : f.Serving g) : g ∈ f.system.granted := (System.latest_mem h.1).1

/-- The boots that are live are those of the workers that serve. -/
theorem Kept.live_iff (h : f.Kept crew) (hg : g ∈ f.system.granted) :
    f.registry.authority.is_boot_live g.boot = true ↔ f.Serving g := by
  obtain ⟨later, earlier, hsplit⟩ := List.append_of_mem hg
  rw [h.system.tracks.live later g earlier hsplit, ← h.system.latest_iff hsplit]
  exact and_comm

theorem Kept.accepts_iff (h : f.Kept crew) (hg : g ∈ f.system.granted)
    (hopen : (f.coordinator.sessions g.conn).closed = false) :
    f.registry.Accepts (f.coordinator.envelope g.conn) ↔ f.Serving g := by
  rw [Registry.Accepts, Coordinator.envelope, h.session g hg hopen, ← h.live_iff hg]
  exact and_iff_right h.epoch

/-- The worker at the connection has greeted. -/
theorem Kept.grant (h : f.Kept crew) (hsent : f.sent conn ≠ 0) : ∃ g ∈ f.system.granted, g.conn = conn :=
  (h.greeted conn).2 hsent

/-- The next line is read as the next message. -/
theorem Kept.processed (h : f.Kept crew) (hopen : (f.coordinator.sessions conn).closed = false) {line : Text}
    (hline : f.nextLine crew conn = some line) (scan : List ServiceInstanceId) :
    ∃ m, (crew conn).messages[f.sent conn]? = some m ∧ f.coordinator.process conn scan line =
      .ok (f.coordinator.handle conn scan m, encode_frame (f.coordinator.reply conn scan m)) := by
  have hworker : f.sent conn ≠ 0 → (f.coordinator.sessions conn).has_worker = true := by
    intro hsent
    obtain ⟨g, hg, rfl⟩ := h.grant hsent
    rw [h.session g hg hopen]
  obtain ⟨m, hm, hread⟩ := (crew conn).request_script hline hworker
  exact ⟨m, hm, by rw [Coordinator.process, hread]⟩

/-- Every message but the greeting is a call. -/
theorem messages_call (w : Worker) {k : ℕ} (hk : k ≠ 0) {m : Message} (hm : w.messages[k]? = some m) (s : Session) :
    ∃ op, m.call s = some op := by
  match k with
  | 0 => exact absurd rfl hk
  | 1 | 2 | 3 | 4 | 5 =>
    cases hm
    exact ⟨_, rfl⟩
  | k + 6 => cases hm

/-! ## A line of a worker that serves -/

theorem classify_available {r : Registry} {inst : ServiceInstance} (hlive : r.authority.is_boot_live inst.boot = true)
    (hfresh : inst.freshness = Freshness.CURRENT) (hreach : inst.reachability = Reachability.REACHABLE)
    (hlease : r.leaseActive inst.lease = true) (hfound : r.requirementsFound inst = true)
    (hready : inst.readiness = Readiness.READY) (hhealth : inst.health = Health.HEALTHY) :
    r.classify inst = .AVAILABLE := by
  simp [Registry.classify, hlive, hfresh, hreach, hlease, hfound, hready, hhealth]

/-- The instance of a worker is classified as available by what the worker sent before. -/
theorem reclassify_placed {r : Registry} (w : Worker) {boot : WorkerBootId} (id : ServiceInstanceId)
    (hlive : r.authority.is_boot_live boot = true) (hs : r.services[(⟨w.serviceId⟩ : ServiceId)]? = some (serviceOf w.serviceId))
    (he : r.endpoints[(⟨w.id⟩ : EndpointId)]? = some (w.bound id))
    (hc : r.capabilities[(⟨w.id⟩ : CapabilityId)]? = some (capabilityOf w.id)) :
    r.reclassify_lifecycle { w.inst with instance_id := id, worker := ⟨w.id⟩, boot := boot } = w.placed boot id := by
  have hhealth : Registry.aggregate_health { w.inst with instance_id := id, worker := ⟨w.id⟩, boot := boot } r.endpoints =
      Health.HEALTHY := by
    simp [Registry.aggregate_health, Worker.inst, he, Worker.bound, Worker.endpoint]
  have hreach : Registry.aggregate_reachability { w.inst with instance_id := id, worker := ⟨w.id⟩, boot := boot } r.endpoints =
      Reachability.REACHABLE := by
    simp [Registry.aggregate_reachability, Registry.aggregateReachabilityLoop, Worker.inst, he, Worker.bound, Worker.endpoint]
  have hfound : r.requirementsFound { w.inst with instance_id := id, worker := ⟨w.id⟩, boot := boot } = true := by
    simp [Registry.requirementsFound, Registry.capabilityFound, Registry.capability_current, Worker.inst, hs, hc, serviceOf,
      capabilityOf]
  have hlease : r.leaseActive {} = true := rfl
  have hclassify : r.classify { w.inst with instance_id := id, worker := ⟨w.id⟩, boot := boot } = .AVAILABLE :=
    classify_available hlive rfl rfl hlease hfound rfl rfl
  unfold Registry.reclassify_lifecycle
  simp only [hhealth, hreach]
  exact congrArg (fun l => { w.placed boot id with lifecycle := l }) hclassify

/-- The generations of the workers with one id. -/
theorem Kept.older (h : f.Kept crew) (hs : f.Serving g) {g' : Grant} (hg' : g' ∈ f.system.granted)
    (hid : (crew g'.conn).workerId = (crew g.conn).workerId) (hsent : f.sent g'.conn ≠ f.sent g.conn) :
    (crew g'.conn).generation < (crew g.conn).generation :=
  (h.roster.order g hs.mem hs g' hg' hid).resolve_left fun heq => hsent (by rw [heq])

/-- The last line: the instance under the next id, bound and available. -/
theorem Kept.put_last (h : f.Kept crew) (hs : f.Serving g) (hk : f.sent g.conn = 5) (scan : List ServiceInstanceId) :
    ∃ t, f.registry.register_instance scan { (crew g.conn).inst with worker := ⟨(crew g.conn).id⟩, boot := g.boot }
        (f.coordinator.envelope g.conn) = (.ok ⟨f.registry.next_id⟩, t) ∧
      (f.registry.next_id.toNat + 1 < 2 ^ 64 → 0 < t.next_id.toNat ∧ Stocked crew f.system.granted f.Serving
        (Function.update f.sent g.conn (f.sent g.conn + 1)) t.next_id t.shelves) := by
  have ha := (h.accepts_iff hs.mem hs.2).2 hs
  have hp := h.stocked.placed g hs.mem hs
  rw [hk] at hp
  generalize hinst : { (crew g.conn).inst with worker := ⟨(crew g.conn).id⟩, boot := g.boot } = inst
  have hservice := hp.service (by omega)
  have hstored : inst.service_id ∈ f.registry.services := by
    rw [← hinst]
    exact Std.ExtTreeMap.mem_iff_isSome_getElem?.2 (Option.isSome_of_eq_some hservice)
  have hnewer : ∀ id current, f.registry.IsCurrent inst.service_id id current →
      current.instance_generation < inst.instance_generation := by
    rw [← hinst]
    intro id current hc
    obtain ⟨_, g', hg', h6, _, hid, hgen⟩ := h.stocked.instances id current hc.1
    have hlt := h.older hs hg' (serviceId_inj (congrArg Id.value (hid.symm.trans hc.2.1))) (by omega)
    rw [hgen]
    exact hlt
  have hbinds : inst.endpoints = [⟨(crew g.conn).id⟩] := by rw [← hinst]; rfl
  obtain ⟨t, stored, ht, hnext, hsucceeds, hshelves⟩ := Registry.register_instance_shelves ha h.tombstones
    (by rw [← hinst]; rfl) hstored hnewer hbinds (hp.endpoint (by omega) (by omega)) rfl scan
  refine ⟨t, ht, fun hroom => ?_⟩
  have hlive : t.authority.is_boot_live g.boot = true := by
    have hwrites := Registry.InstanceWrites.register_instance f.registry scan inst (f.coordinator.envelope g.conn)
    have hbefore := (h.live_iff hs.mem).2 hs
    rw [ht] at hwrites
    rwa [RegistryAuthority.is_boot_live, hwrites.sameIncarnations.live_boots]
  have hplaced := reclassify_placed (crew g.conn) ⟨f.registry.next_id⟩ hlive
    ((congrFun (congrArg Shelves.services hshelves) _).trans hservice)
    ((congrFun (congrArg Shelves.endpoints hshelves) _).trans (Function.update_self _ _ _))
    ((congrFun (congrArg Shelves.capabilities hshelves) _).trans (hp.capability (by omega)))
  rw [← hinst] at hshelves hsucceeds
  rw [hplaced] at hshelves
  rw [hnext]
  have hpos : 0 < (f.registry.next_id + 1).toNat := by
    rw [UInt64.toNat_add, UInt64.toNat_one, Nat.mod_eq_of_lt hroom]
    omega
  exact ⟨hpos, h.stocked.put_instance h.roster hs.mem hs hk h.next_id hroom hsucceeds hshelves⟩

theorem Kept.put (h : f.Kept crew) (hs : f.Serving g) {m : Message} {op : AuthorityEnvelope → Op}
    (hm : (crew g.conn).messages[f.sent g.conn]? = some m) (hop : m.call (f.coordinator.sessions g.conn) = some op)
    (scan : List ServiceInstanceId) :
    ∃ reply t, f.registry.exec scan (op (f.coordinator.envelope g.conn)) = (.ok reply, t) ∧
      (f.sent g.conn ≠ 5 → t.next_id = f.registry.next_id) ∧
      ((f.sent g.conn = 5 → f.registry.next_id.toNat + 1 < 2 ^ 64) → 0 < t.next_id.toNat ∧
        Stocked crew f.system.granted f.Serving (Function.update f.sent g.conn (f.sent g.conn + 1)) t.next_id t.shelves) := by
  have ha := (h.accepts_iff hs.mem hs.2).2 hs
  have hst := h.stocked
  have hp := hst.placed g hs.mem hs
  obtain ⟨k, hk⟩ : ∃ k, f.sent g.conn = k := ⟨_, rfl⟩
  rw [hk] at hm
  match k with
  | 0 => exact absurd hk ((h.greeted g.conn).1 ⟨g, hs.mem, rfl⟩)
  | 1 =>
    cases hm
    cases hop
    obtain ⟨t, ht, hshelves, hnext⟩ := Registry.register_runtime_shelves (runtimeOf (crew g.conn).id) ha h.tombstones
      (crew g.conn).id_ne_zero (beq_self _).1 fun current hc => .inl (hst.runtimes _ current hc)
    refine ⟨_, t, congrArg (Outcome.map _) ht, fun _ => hnext, fun _ => ⟨hnext ▸ h.next_id, ?_⟩⟩
    rw [hnext]
    exact hst.put_runtime h.roster hs.mem hs hk hshelves
  | 2 =>
    cases hm
    cases hop
    obtain ⟨t, ht, hshelves, hnext⟩ := Registry.register_service_shelves (serviceOf (crew g.conn).serviceId) ha
      h.tombstones (beq_self _).2.1 fun current hc => .inl (hst.services _ current hc)
    refine ⟨_, t, congrArg (Outcome.map _) ht, fun _ => hnext, fun _ => ⟨hnext ▸ h.next_id, ?_⟩⟩
    rw [hnext]
    exact hst.put_service h.roster hs.mem hs hk hshelves
  | 3 =>
    cases hm
    cases hop
    obtain ⟨t, ht, hshelves, hnext⟩ := Registry.register_endpoint_shelves (crew g.conn).endpoint ha h.tombstones
      (crew g.conn).id_ne_zero fun current hc => .inr (by
        obtain ⟨g', hg', h4, hid, hgen⟩ := hst.endpoints _ current hc
        have hlt := h.older hs hg' (id_inj (congrArg Id.value hid).symm) (by omega)
        rw [show Registry.endpoints_.generation current = current.generation from rfl, hgen]
        exact hlt)
    refine ⟨_, t, congrArg (Outcome.map _) ht, fun _ => hnext, fun _ => ⟨hnext ▸ h.next_id, ?_⟩⟩
    rw [hnext]
    exact hst.put_endpoint h.roster hs.mem hs hk hshelves
  | 4 =>
    cases hm
    cases hop
    obtain ⟨t, ht, hshelves, hnext⟩ := Registry.register_capability_shelves (capabilityOf (crew g.conn).id) ha
      h.tombstones (crew g.conn).id_ne_zero (beq_self _).2.2 fun current hc => .inl (hst.capabilities _ current hc)
    refine ⟨_, t, congrArg (Outcome.map _) ht, fun _ => hnext, fun _ => ⟨hnext ▸ h.next_id, ?_⟩⟩
    rw [hnext]
    exact hst.put_capability h.roster hs.mem hs hk hshelves
  | 5 =>
    cases hm
    cases hop
    obtain ⟨t, ht, hput⟩ := h.put_last hs hk scan
    rw [h.session g hs.mem hs.2, h.worker g hs.mem]
    exact ⟨_, t, congrArg (Outcome.map _) ht, fun hne => absurd hk hne, fun hroom => hput (hroom hk)⟩
  | k + 6 => cases hm

/-! ## Steps -/

theorem reachable_exec {r : Registry} (h : r.Reachable) (hscan : scan.Perm r.instances.keys) (op : Op) :
    (r.exec scan op).2.Reachable :=
  h.run (.single (e := ⟨op, scan, (r.exec scan op).1⟩) ⟨hscan, rfl⟩)

/-- A call of a registration keeps the invariant, if it leaves the shelves stocked. -/
theorem Kept.called (h : f.Kept crew) (hg : g ∈ f.system.granted) (hopen : (f.coordinator.sessions g.conn).closed = false)
    (hscan : scan.Perm f.registry.instances.keys) {op : AuthorityEnvelope → Op}
    (hclass : ∀ env, (op env).class = .descriptor ∨ (op env).class = .inst) {t : Registry}
    (ht : (f.registry.exec scan (op (f.coordinator.envelope g.conn))).2 = t) (hpos : 0 < t.next_id.toNat)
    (hstock : Stocked crew f.system.granted f.Serving (Function.update f.sent g.conn (f.sent g.conn + 1)) t.next_id t.shelves) :
    Kept crew ⟨⟨f.coordinator.mutate g.conn scan op, f.system.granted⟩, Function.update f.sent g.conn (f.sent g.conn + 1)⟩ := by
  have hmutate : f.coordinator.mutate g.conn scan op = { f.coordinator with registry := t } := by
    rw [Coordinator.mutate, h.session g hg hopen, ← ht, Coordinator.envelope, h.session g hg hopen]
    rfl
  have hne : ∀ env, (op env).class ≠ .image ∧ (op env).class ≠ .tombstone ∧ op env ≠ .begin_coordinator_epoch := by
    intro env
    refine ⟨?_, ?_, ?_⟩
    · rcases hclass env with hc | hc <;> simp [hc]
    · rcases hclass env with hc | hc <;> simp [hc]
    · rintro hop
      rcases hclass env with hc | hc <;> rw [hop] at hc <;> cases hc
  have hsystem : System.Kept { f.system with coordinator := f.coordinator.mutate g.conn scan op } := h.system.mutate scan op hclass
  rw [hmutate] at hsystem ⊢
  refine ⟨hsystem, ?_, ?_, ?_, hpos, fun c => ?_, h.worker, h.session, h.roster, hstock⟩
  · exact ht ▸ reachable_exec h.reachable hscan _
  · rw [h.epoch, ← ht]
    exact (f.registry.exec_epoch scan (hne _).1 (hne _).2.2).symm
  · rw [← ht]
    exact (f.registry.exec_tombstones scan _ (hne _).2.1 (hne _).1).trans h.tombstones
  · by_cases hc : c = g.conn
    · exact iff_of_true ⟨g, hg, hc.symm⟩ (by simp only [hc, Function.update_self]; omega)
    · exact (h.greeted c).trans (by simp only [Function.update_of_ne hc])

/-- A worker whose place was taken is refused. -/
theorem Kept.rejected (h : f.Kept crew) (hg : g ∈ f.system.granted) (hopen : (f.coordinator.sessions g.conn).closed = false)
    (hs : ¬ f.Serving g) {op : AuthorityEnvelope → Op} (henv : ∀ env, (op env).envelope = some env)
    (scan : List ServiceInstanceId) :
    ∃ e, f.registry.exec scan (op (f.coordinator.envelope g.conn)) = (.error e, f.registry) :=
  exec_rejected (henv _) (mt (h.accepts_iff hg hopen).1 hs) scan

/-- Where a worker serves, no other connection has its grant. -/
theorem Kept.idle (h : f.Kept crew) (hg : g ∈ f.system.granted) (hs : ¬ f.Serving g) :
    ∀ g' ∈ f.system.granted, f.Serving g' → g'.conn ≠ g.conn := by
  intro g' hg' hserve hconn
  exact hs (h.roster.once g' hg' g hg hconn ▸ hserve)

theorem script_length (w : Worker) : w.script.length = 6 := rfl

theorem Kept.line_step (h : f.Kept crew) (hsent : f.sent conn ≠ 0) {line : Text} {c : Coordinator} {reply : List UInt8}
    (hopen : (f.coordinator.sessions conn).closed = false) (hscan : scan.Perm f.registry.instances.keys)
    (hline : f.nextLine crew conn = some line) (hprocess : f.coordinator.process conn scan line = .ok (c, reply))
    (hroom : f.sent conn = 5 → f.registry.next_id.toNat + 1 < 2 ^ 64) :
    Kept crew ⟨⟨c, f.ledger crew conn⟩, Function.update f.sent conn (f.sent conn + 1)⟩ := by
  obtain ⟨g, hg, rfl⟩ := h.grant hsent
  obtain ⟨m, hm, hread⟩ := h.processed hopen hline scan
  obtain ⟨rfl, -⟩ := Prod.mk.inj (Except.ok.inj (hread.symm.trans hprocess))
  obtain ⟨op, hop⟩ := messages_call _ hsent hm (f.coordinator.sessions g.conn)
  have hclass := Coordinator.call_class hop
  rw [ledger, if_neg hsent, Coordinator.handle_call hop]
  by_cases hs : f.Serving g
  · obtain ⟨reply, t, hexec, _, hput⟩ := h.put hs hm hop scan
    obtain ⟨hpos, hstock⟩ := hput hroom
    exact h.called hg hopen hscan (fun env => (hclass env).2) (by rw [hexec]) hpos hstock
  · obtain ⟨e, hexec⟩ := h.rejected hg hopen hs (fun env => (hclass env).1) scan
    have hlt : f.sent g.conn < 6 := by
      obtain ⟨hlt, _⟩ := List.getElem?_eq_some_iff.1 hline
      rwa [script_length] at hlt
    exact h.called hg hopen hscan (fun env => (hclass env).2) (by rw [hexec]) h.next_id (h.stocked.skip hlt (h.idle hg hs))

/-- The fleet after a greeting. -/
def greet (f : Fleet) (conn : ℕ) (scan : List ServiceInstanceId) (worker : WorkerId) : Fleet :=
  ⟨f.system.next (.message conn scan (.HELLO worker)), Function.update f.sent conn (f.sent conn + 1)⟩

/-- The grant of a greeting. -/
def granting (f : Fleet) (conn : ℕ) (worker : WorkerId) : Grant := ⟨f.registry.nextBoot, conn, worker⟩

/-- A greeting takes the place of the workers with its id, and of no other. -/
theorem serving_greet (hnew : ∀ g ∈ f.system.granted, g.conn ≠ conn) (worker : WorkerId) (hg : g ∈ f.system.granted) :
    (f.greet conn scan worker).Serving g ↔ g.worker ≠ worker ∧ f.Serving g := by
  have hne := hnew g hg
  have hlatest : (f.greet conn scan worker).system.latest g.worker =
      if worker = g.worker then some (f.granting conn worker) else f.system.latest g.worker := System.latest_cons _ _ _ _
  have hopen : (f.greet conn scan worker).coordinator.sessions g.conn = f.coordinator.sessions g.conn :=
    Function.update_of_ne hne _ _
  rw [Serving, Serving, hlatest, hopen]
  split_ifs with hw
  · refine iff_of_false (fun h => hne ?_) fun h => h.1 hw.symm
    exact (congrArg Grant.conn (Option.some.inj h.1)).symm
  · exact (and_iff_right (Ne.symm hw)).symm

theorem Kept.roster_greet (h : f.Kept crew) (hnew : ∀ g ∈ f.system.granted, g.conn ≠ conn)
    (hsystem : (f.greet conn scan ⟨(crew conn).id⟩).system.Kept)
    (hgen : f.Succeeding crew conn) :
    Roster crew (f.greet conn scan ⟨(crew conn).id⟩).system.granted (f.greet conn scan ⟨(crew conn).id⟩).Serving where
  once g hg g' hg' hconn := by
    rcases List.mem_cons.1 hg with rfl | hg <;> rcases List.mem_cons.1 hg' with rfl | hg'
    · rfl
    · exact absurd hconn.symm (hnew g' hg')
    · exact absurd hconn (hnew g hg)
    · exact h.roster.once g hg g' hg' hconn
  boots g hg g' hg' hboot := hsystem.same_boot hg hg' hboot
  order g hg hserve g' hg' hid := by
    rcases List.mem_cons.1 hg with rfl | hg <;> rcases List.mem_cons.1 hg' with rfl | hg'
    · exact .inl rfl
    · exact .inr (hgen g' hg' hid)
    · obtain ⟨hw, _⟩ := (serving_greet hnew _ hg).1 hserve
      rw [h.worker g hg] at hw
      exact absurd (congrArg (fun n => (⟨UInt64.ofNat n⟩ : WorkerId)) hid.symm) hw
    · exact h.roster.order g hg ((serving_greet hnew _ hg).1 hserve).2 g' hg' hid

/-- The worker that holds a boot is the last one to greet for its id. -/
theorem Kept.at_boot (h : f.Kept crew) (hg : g ∈ f.system.granted) (hs : f.Serving g) {worker : WorkerId}
    (hboot : f.registry.authority.current_boot[worker]? = some g.boot) : g.worker = worker := by
  have hnonzero := h.system.book.nonzero g.boot ((h.live_iff hg).2 hs)
  have hcurrent : f.registry.authority.holders.current worker = some g.boot :=
    Option.filter_eq_some_iff.2 ⟨hboot, by simpa using hnonzero⟩
  rw [h.system.current, Option.map_eq_some_iff] at hcurrent
  obtain ⟨g', hg', hb⟩ := hcurrent
  obtain ⟨hmem, hworker⟩ := System.latest_mem (Option.filter_eq_some_iff.1 hg').1
  rw [← h.system.same_boot hmem hg hb, hworker]

theorem Kept.greet_step (h : f.Kept crew) (hsent : f.sent conn = 0) (hopen : (f.coordinator.sessions conn).closed = false)
    (hscan : scan.Perm f.registry.instances.keys) (hroom : f.registry.next_boot.toNat + 1 < 2 ^ 64)
    (hgen : f.Succeeding crew conn) :
    Kept crew (f.greet conn scan ⟨(crew conn).id⟩) := by
  have hnew : ∀ g ∈ f.system.granted, g.conn ≠ conn := fun g hg hconn => (h.greeted conn).1 ⟨g, hg, hconn⟩ hsent
  have hsystem : (f.greet conn scan ⟨(crew conn).id⟩).system.Kept := h.system.hello hopen hroom scan
  obtain ⟨boot, hboot, hfallen⟩ := Registry.adopt_worker_fallen (wellKeyed_reachable h.reachable).instances ⟨(crew conn).id⟩
  have hgone : ∀ g ∈ f.system.granted, (f.greet conn scan ⟨(crew conn).id⟩).Serving g → f.Serving g ∧ g.boot ≠ boot := by
    intro g hg hserve
    obtain ⟨hw, hs⟩ := (serving_greet hnew _ hg).1 hserve
    refine ⟨hs, ?_⟩
    rintro rfl
    rcases hboot with hzero | hboot
    · exact h.system.book.nonzero g.boot ((h.live_iff hg).2 hs) (congrArg Id.value hzero)
    · exact hw (h.at_boot hg hs hboot)
  have hnext : (f.registry.adopt_worker ⟨(crew conn).id⟩).2.next_id = f.registry.next_id := by
    obtain ⟨_, _, _, _, _, hw⟩ := f.registry.adopt_worker_writes ⟨(crew conn).id⟩
    rw [hw]
  have hstock := (h.stocked.fall hfallen hgone).greet hsent hnew (f.granting conn ⟨(crew conn).id⟩) rfl fun _ _ hs => hs
  rw [← hnext] at hstock
  refine ⟨hsystem, reachable_exec h.reachable hscan (.adopt_worker ⟨(crew conn).id⟩), ?_, ?_, ?_, fun c => ?_, ?_, ?_,
    h.roster_greet hnew hsystem hgen, hstock⟩
  · have hepoch : (f.registry.exec scan (.adopt_worker ⟨(crew conn).id⟩)).2.authority.epoch = f.registry.authority.epoch :=
      f.registry.exec_epoch scan (by simp [Op.class]) (by simp)
    exact h.epoch.trans hepoch.symm
  · have htombstones := f.registry.exec_tombstones scan (.adopt_worker ⟨(crew conn).id⟩) (by simp [Op.class]) (by simp [Op.class])
    exact htombstones.trans h.tombstones
  · exact hnext ▸ h.next_id
  · by_cases hc : c = conn
    · exact iff_of_true ⟨_, List.mem_cons_self, hc.symm⟩ (by simp only [greet, hc, Function.update_self]; omega)
    · have hother : (∃ g ∈ (f.greet conn scan ⟨(crew conn).id⟩).system.granted, g.conn = c) ↔
          ∃ g ∈ f.system.granted, g.conn = c := by
        constructor
        · rintro ⟨g, hg, hgc⟩
          rcases List.mem_cons.1 hg with rfl | hg
          · exact absurd hgc.symm hc
          · exact ⟨g, hg, hgc⟩
        · rintro ⟨g, hg, hgc⟩
          exact ⟨g, List.mem_cons_of_mem _ hg, hgc⟩
      rw [hother, h.greeted c]
      simp only [greet, Function.update_of_ne hc]
  · intro g hg
    rcases List.mem_cons.1 hg with rfl | hg
    · rfl
    · exact h.worker g hg
  · intro g hg hopen'
    rcases List.mem_cons.1 hg with rfl | hg
    · exact Function.update_self _ _ _
    · have hsame : (f.greet conn scan ⟨(crew conn).id⟩).coordinator.sessions g.conn = f.coordinator.sessions g.conn :=
        Function.update_of_ne (hnew g hg) _ _
      rw [hsame] at hopen' ⊢
      exact h.session g hg hopen'

/-- What closes is the connection, and the worker at it serves no more. -/
theorem serving_close (f : Fleet) (conn : ℕ) (g : Grant) :
    Serving ⟨⟨f.coordinator.close conn, f.system.granted⟩, f.sent⟩ g ↔ g.conn ≠ conn ∧ f.Serving g := by
  by_cases hc : g.conn = conn
  · refine iff_of_false (fun hs => ?_) fun hs => hs.1 hc
    have hclosed : ((f.coordinator.close conn).sessions g.conn).closed = true := by
      rw [hc]
      simp [Coordinator.close]
    exact absurd (hs.2.symm.trans hclosed) (by decide)
  · have hsame : (f.coordinator.close conn).sessions g.conn = f.coordinator.sessions g.conn := Function.update_of_ne hc _ _
    exact (and_congr_right fun _ => by rw [hsame]).trans (and_iff_right hc).symm

theorem Kept.close_step (h : f.Kept crew) (hopen : (f.coordinator.sessions conn).closed = false) :
    Kept crew ⟨⟨f.coordinator.close conn, f.system.granted⟩, f.sent⟩ := by
  have horderly : f.system.Orderly (.close conn) := by
    intro worker g hlatest hconn
    have hg := (System.latest_mem hlatest).1
    rcases hlast : f.system.lastOn conn with _ | g'
    · exact absurd hconn (by simpa using List.find?_eq_none.1 hlast g hg)
    · obtain ⟨hg', hconn'⟩ := System.lastOn_mem hlast
      rw [h.roster.once g' hg' g hg (hconn'.trans hconn.symm)]
  have hsystem := h.system.close hopen horderly
  have hgone : ∀ g ∈ f.system.granted, Serving ⟨⟨f.coordinator.close conn, f.system.granted⟩, f.sent⟩ g → f.Serving g :=
    fun g _ hs => ((serving_close f conn g).1 hs).2
  have hregistry : (f.coordinator.close conn).registry.Reachable ∧
      (f.coordinator.close conn).registry.authority.epoch = f.registry.authority.epoch ∧
      (f.coordinator.close conn).registry.tombstones = f.registry.tombstones ∧
      (f.coordinator.close conn).registry.next_id = f.registry.next_id ∧
      Stocked crew f.system.granted (Serving ⟨⟨f.coordinator.close conn, f.system.granted⟩, f.sent⟩) f.sent f.registry.next_id
        (f.coordinator.close conn).registry.shelves := by
    by_cases hsent : f.sent conn = 0
    · -- a connection without a worker leaves the registry alone
      have hnone : f.system.lastOn conn = none := by
        rcases hlast : f.system.lastOn conn with _ | g
        · rfl
        · obtain ⟨hg, hconn⟩ := System.lastOn_mem hlast
          exact absurd hsent ((h.greeted conn).1 ⟨g, hg, hconn⟩)
      have hworker : (f.coordinator.sessions conn).has_worker = false := by rw [h.system.worker conn hopen, hnone]; rfl
      have hsame : (f.coordinator.close conn).registry = f.registry := by rw [Coordinator.close, hworker]; rfl
      rw [hsame]
      exact ⟨h.reachable, rfl, rfl, rfl, { h.stocked with placed := fun g hg hs => h.stocked.placed g hg (hgone g hg hs) }⟩
    · obtain ⟨g, hg, rfl⟩ := h.grant hsent
      have hdied : (f.coordinator.close g.conn).registry = f.registry.mark_worker_died g.boot := by
        rw [Coordinator.close, h.session g hg hopen]
        rfl
      have hfallen := Registry.revoke_fallen (wellKeyed_reachable h.reachable).instances g.boot
      obtain ⟨_, _, _, _, hwrites⟩ := Registry.revoke_writes f.registry g.boot
      rw [hdied]
      refine ⟨reachable_exec h.reachable (.refl _) (.mark_worker_died g.boot), ?_, ?_, ?_, ?_⟩
      · have hepoch : (f.registry.exec [] (.mark_worker_died g.boot)).2.authority.epoch = f.registry.authority.epoch :=
          f.registry.exec_epoch [] (by simp [Op.class]) (by simp)
        exact hepoch
      · exact f.registry.exec_tombstones [] (.mark_worker_died g.boot) (by simp [Op.class]) (by simp [Op.class])
      · rw [Registry.mark_worker_died, hwrites]
      · refine h.stocked.fall hfallen fun g' hg' hs => ⟨hgone g' hg' hs, fun hboot => ?_⟩
        exact ((serving_close f g.conn g').1 hs).1 (congrArg Grant.conn (h.system.same_boot hg' hg hboot))
  obtain ⟨hreachable, hepoch, htombstones, hnext, hstock⟩ := hregistry
  refine ⟨hsystem, hreachable, h.epoch.trans hepoch.symm, htombstones.trans h.tombstones, hnext ▸ h.next_id, h.greeted,
    h.worker, fun g hg hopen' => ?_, ?_, hnext ▸ hstock⟩
  · have hne : g.conn ≠ conn := by
      rintro rfl
      have hclosed : ((f.coordinator.close g.conn).sessions g.conn).closed = true := by simp [Coordinator.close]
      exact absurd (hopen'.symm.trans hclosed) (by decide)
    have hsame : (f.coordinator.close conn).sessions g.conn = f.coordinator.sessions g.conn := Function.update_of_ne hne _ _
    show (f.coordinator.close conn).sessions g.conn = _
    rw [hsame]
    exact h.session g hg ((congrArg Session.closed hsame).symm.trans hopen')
  · exact { h.roster with order := fun g hg hs => h.roster.order g hg (hgone g hg hs) }

/-- A query is answered, and changes nothing. -/
theorem query_processed (c : Coordinator) (conn : ℕ) (scan : List ServiceInstanceId) (kind : Text) :
    c.process conn scan (text "QUERY," ++ kind) = .ok (c, encode_frame { kind := .QUERY_RESULT
                                                                         payload := result_text (c.registry.query scan
      { service_kind := service_kind_from_string ((split kind ','.toUInt8).headD []) }) }) := by
  have hname : ','.toUInt8 ∉ text "QUERY" := by decide
  have hsplit : split (text "QUERY," ++ kind) ','.toUInt8 = text "QUERY" :: split kind ','.toUInt8 :=
    split_append_cons hname kind
  rw [Coordinator.process, hsplit]
  rcases hkind : split kind ','.toUInt8 with _ | ⟨asked, rest⟩
  · exact absurd hkind (split_ne_nil _ _)
  · rfl

theorem kept_start : Kept crew {} where
  system := System.kept_start
  reachable := reachable_exec (.refl _) (.refl _) .begin_coordinator_epoch
  epoch := rfl
  tombstones := rfl
  next_id := by decide
  greeted conn := by simp [System.start]
  worker := by simp [System.start]
  session := by simp [System.start]
  roster := ⟨by simp [System.start], by simp [System.start], by simp [System.start]⟩
  stocked := by
    have hfresh : Registry.fresh.shelves = ⟨fun _ => none, fun _ => none, fun _ => none, fun _ => none, fun _ => none⟩ :=
      (Registry.shelves_rebuild_indexes _).trans (by ext <;> simp [Registry.shelves])
    have hinstances : ∀ k : ServiceInstanceId, Registry.fresh.instances[k]? = none := congrFun (congrArg Shelves.instances hfresh)
    have hendpoints : ∀ k : EndpointId, Registry.fresh.endpoints[k]? = none := congrFun (congrArg Shelves.endpoints hfresh)
    have hcaps : ∀ k : CapabilityId, Registry.fresh.capabilities[k]? = none :=
      congrFun (congrArg Shelves.capabilities hfresh)
    have hempty : ({} : Fleet).registry.shelves = Registry.fresh.shelves := by
      ext <;> simp [Registry.shelves, registry, System.start, Coordinator.start, Registry.begin_coordinator_epoch,
        hinstances, hendpoints, hcaps]
    rw [hempty, hfresh]
    constructor <;> simp [System.start]

/-- Every orderly step keeps the invariant. -/
theorem Kept.step {f' : Fleet} {move : Move} (h : f.Kept crew) (hs : Guarded (Step crew) (Orderly crew) f move f') :
    f'.Kept crew := by
  obtain ⟨hstep, horderly⟩ := hs
  cases hstep with
  | @line conn scan line c reply hopen hscan hline hprocess =>
    obtain ⟨hgreeting, hid⟩ := horderly
    by_cases hsent : f.sent conn = 0
    · obtain ⟨m, hm, hread⟩ := h.processed hopen hline scan
      obtain ⟨rfl, -⟩ := Prod.mk.inj (Except.ok.inj (hread.symm.trans hprocess))
      rw [hsent] at hm
      cases hm
      obtain ⟨hboot, hgen⟩ := hgreeting hsent
      have hgreet := h.greet_step hsent hopen hscan hboot hgen
      rw [ledger, if_pos hsent]
      exact hgreet
    · exact h.line_step hsent hopen hscan hline hprocess hid
  | @query conn scan kind c reply hopen hscan hprocess =>
    obtain ⟨rfl, -⟩ := Prod.mk.inj (Except.ok.inj ((query_processed f.coordinator conn scan kind).symm.trans hprocess))
    exact h
  | close hopen => exact h.close_step hopen

/-! ## What the invariant says -/

theorem Kept.acknowledges (h : f.Kept crew) {line : Text} (hopen : (f.coordinator.sessions conn).closed = false)
    (hline : f.nextLine crew conn = some line) (hcurrent : f.sent conn = 0 ∨ f.Current conn) (scan : List ServiceInstanceId) :
    ∃ c ack, f.coordinator.process conn scan line = .ok (c, encode_frame ack) ∧ ack.kind = .ACK := by
  obtain ⟨m, hm, hread⟩ := h.processed hopen hline scan
  refine ⟨_, _, hread, ?_⟩
  by_cases hsent : f.sent conn = 0
  · rw [hsent] at hm
    cases hm
    rfl
  · obtain ⟨g, hs, rfl⟩ := hcurrent.resolve_left hsent
    obtain ⟨op, hop⟩ := messages_call _ hsent hm (f.coordinator.sessions g.conn)
    obtain ⟨reply, t, hexec, _, _⟩ := h.put hs hm hop scan
    obtain ⟨done, _, hreply⟩ := Coordinator.reply_call hop
    rw [hreply, Coordinator.answer_kind, hexec]
    rfl

theorem Kept.refuses (h : f.Kept crew) {line : Text} (hopen : (f.coordinator.sessions conn).closed = false)
    (hline : f.nextLine crew conn = some line) (hsent : f.sent conn ≠ 0) (hcurrent : ¬ f.Current conn)
    (scan : List ServiceInstanceId) :
    ∃ error, f.coordinator.process conn scan line = .ok (f.coordinator, encode_frame error) ∧ error.kind = .ERROR := by
  obtain ⟨g, hg, rfl⟩ := h.grant hsent
  obtain ⟨m, hm, hread⟩ := h.processed hopen hline scan
  obtain ⟨op, hop⟩ := messages_call _ hsent hm (f.coordinator.sessions g.conn)
  obtain ⟨e, hexec⟩ := h.rejected hg hopen (fun hs => hcurrent ⟨g, hs, rfl⟩)
    (fun env => (Coordinator.call_class hop env).1) scan
  have hsame : f.coordinator.handle g.conn scan m = f.coordinator := by
    rw [Coordinator.handle_call hop, Coordinator.mutate]
    split_ifs
    · rfl
    · exact congrArg (fun r => { f.coordinator with registry := r }) (congrArg Prod.snd hexec)
  rw [hsame] at hread
  refine ⟨_, hread, ?_⟩
  obtain ⟨done, _, hreply⟩ := Coordinator.reply_call hop
  rw [hreply, Coordinator.answer_kind, hexec]
  rfl

/-- The instance of a worker that holds. -/
theorem Kept.held (h : f.Kept crew) (hg : g ∈ f.system.granted) (hs : f.Serving g) (h6 : f.sent g.conn = 6) :
    ∃ id, f.registry.instances[id]? = some ((crew g.conn).placed g.boot id) ∧
      ∀ (k : ServiceInstanceId) (inst : ServiceInstance), f.registry.instances[k]? = some inst → inst.boot = g.boot → k = id := by
  obtain ⟨id, _, hinst, honly⟩ := (h.stocked.placed g hg hs).inst h6
  exact ⟨id, hinst, honly⟩

/-- The query for model servers. -/
def servers : RegistryQuery := { service_kind := ServiceKind.MODEL_SERVER }

/-- An instance that a worker put there passes the filters while the worker serves. -/
theorem Kept.eligible (h : f.Kept crew) (hs : f.Serving g) (id : ServiceInstanceId) :
    f.registry.Eligible servers ((crew g.conn).placed g.boot id) (serviceOf (crew g.conn).serviceId) where
  stale := by simp [placed]
  invalidated := by simp [placed]
  tombstoned := by simp [placed]
  current _ := by simp [placed]
  live := (h.live_iff hs.mem).2 hs
  freshness := rfl
  readiness := rfl
  health := rfl
  reachability := rfl
  lease := .inl rfl
  capabilities := by simp [servers]
  runtime _ _ := ⟨fun hk => absurd rfl hk, fun hk => absurd rfl hk, fun hk => absurd rfl hk⟩
  api ha := absurd ha (by decide)
  abi ha := absurd ha (by decide)

theorem Kept.ranked_iff (h : f.Kept crew) (hscan : scan.Perm f.registry.instances.keys) (k : ServiceInstanceId) :
    k ∈ (f.registry.query scan servers).rankedIds ↔ ∃ g, f.Serving g ∧ f.sent g.conn = 6 ∧
      f.registry.instances[k]? = some ((crew g.conn).placed g.boot k) := by
  rw [Registry.mem_rankedIds (wellKeyed_reachable h.reachable) hscan]
  constructor
  · rintro ⟨inst, svc, hc, hp⟩
    have he := (Registry.passes_iff.1 hp).1
    obtain ⟨_, g, hg, h6, hboot, _⟩ := h.stocked.instances k inst hc.stored
    have hs : f.Serving g := (h.live_iff hg).1 (hboot ▸ he.live)
    obtain ⟨id, hid, honly⟩ := h.held hg hs h6
    obtain rfl := honly k inst hc.stored hboot
    exact ⟨g, hs, h6, hid⟩
  · rintro ⟨g, hs, h6, hk⟩
    have hservice := (h.stocked.placed g hs.mem hs).service (by omega)
    refine ⟨_, _, ⟨hk, hservice, fun hid => absurd rfl hid, fun _ => rfl⟩, ?_⟩
    exact Registry.passes_iff.2 ⟨h.eligible hs k, fun hask => absurd rfl hask.1⟩

/-- The query that a worker sends for model servers. -/
theorem query_servers (c : Coordinator) (conn : ℕ) (scan : List ServiceInstanceId) :
    c.process conn scan (text "QUERY,MODEL_SERVER") =
      .ok (c, encode_frame { kind := .QUERY_RESULT, payload := result_text (c.registry.query scan servers) }) := by
  have hkind : service_kind_from_string ((split (text "MODEL_SERVER") ','.toUInt8).headD []) = ServiceKind.MODEL_SERVER := by
    decide
  have h := query_processed c conn scan (text "MODEL_SERVER")
  rw [hkind] at h
  exact h

/-- A connection that holds has one grant, and its session says which. -/
theorem Kept.holding (h : f.Kept crew) (hold : f.Holding conn) : ∃ g, f.Serving g ∧ g.conn = conn ∧ f.sent g.conn = 6 ∧
    (f.coordinator.sessions conn).boot = g.boot := by
  obtain ⟨h6, g, hs, rfl⟩ := hold
  exact ⟨g, hs, rfl, h6, by rw [h.session g hs.mem hs.2]⟩

theorem Kept.discovers (h : f.Kept crew) : ∃ id : ℕ → ServiceInstanceId,
    (∀ conn, f.Holding conn → f.registry.instances[id conn]? =
      some ((crew conn).placed (f.coordinator.sessions conn).boot (id conn))) ∧
    (∀ conn conn', f.Holding conn → f.Holding conn' → id conn = id conn' → conn = conn') ∧
    ∀ conn scan, scan.Perm f.registry.instances.keys → ∃ res : RegistryResult,
      f.coordinator.process conn scan (text "QUERY,MODEL_SERVER") =
        .ok (f.coordinator, encode_frame { kind := .QUERY_RESULT, payload := result_text res }) ∧
      res.rankedIds.Nodup ∧ ∀ k, k ∈ res.rankedIds ↔ ∃ conn, f.Holding conn ∧ id conn = k := by
  have hone : ∀ conn, ∃ id : ServiceInstanceId, f.Holding conn →
      f.registry.instances[id]? = some ((crew conn).placed (f.coordinator.sessions conn).boot id) := by
    intro conn
    by_cases hold : f.Holding conn
    · obtain ⟨g, hs, rfl, h6, hboot⟩ := h.holding hold
      obtain ⟨id, hid, _⟩ := h.held hs.mem hs h6
      exact ⟨id, fun _ => by rw [hboot]; exact hid⟩
    · exact ⟨⟨0⟩, fun hold' => absurd hold' hold⟩
  choose id hid using hone
  refine ⟨id, hid, fun conn conn' hold hold' heq => ?_, fun conn scan hscan => ⟨_, query_servers _ conn scan,
    Registry.nodup_rankedIds (wellKeyed_reachable h.reachable) hscan, fun k => ?_⟩⟩
  · -- one instance has one boot, and a boot one grant
    obtain ⟨g, hs, rfl, _, hboot⟩ := h.holding hold
    obtain ⟨g', hs', rfl, _, hboot'⟩ := h.holding hold'
    have hstored := hid _ hold
    rw [heq, hid _ hold'] at hstored
    have hsame : (f.coordinator.sessions g'.conn).boot = (f.coordinator.sessions g.conn).boot :=
      congrArg ServiceInstance.boot (Option.some.inj hstored)
    rw [hboot, hboot'] at hsame
    rw [h.system.same_boot hs'.mem hs.mem hsame]
  · rw [h.ranked_iff hscan]
    constructor
    · rintro ⟨g, hs, h6, hk⟩
      have hold : f.Holding g.conn := ⟨h6, g, hs, rfl⟩
      obtain ⟨_, _, honly⟩ := h.held hs.mem hs h6
      have hboot : (f.coordinator.sessions g.conn).boot = g.boot := by rw [h.session g hs.mem hs.2]
      exact ⟨g.conn, hold, (honly _ _ (hid _ hold) hboot).trans (honly k _ hk rfl).symm⟩
    · rintro ⟨conn, hold, rfl⟩
      obtain ⟨g, hs, rfl, h6, hboot⟩ := h.holding hold
      exact ⟨g, hs, h6, hboot ▸ hid _ hold⟩

theorem Kept.serves (h : f.Kept crew) : f.Serves crew where
  acknowledged _ scan _ hopen _ hline hcurrent := h.acknowledges hopen hline hcurrent scan
  refused _ scan _ hopen hline hsent hcurrent := h.refuses hopen hline hsent hcurrent scan
  discovered := h.discovers

/-- In every run in which no counter wraps and restarted workers come with higher
generations, each worker gets through its script unless a later one takes its place, and a
query finds exactly the workers that have got through it and are there. -/
theorem fleet_served (h : Lib.Reachable (Guarded (Step crew) (Orderly crew)) {} f) : f.Serves crew := by
  have hkept : f.Kept crew := h.inv (Kept crew) kept_start fun _ _ _ hs hst => hs.step hst
  exact hkept.serves

theorem Step.greets (hopen : (f.coordinator.sessions conn).closed = false) (hscan : scan.Perm f.registry.instances.keys)
    (hsent : f.sent conn = 0) : Step crew f (.line conn scan) (f.greet conn scan ⟨(crew conn).id⟩) := by
  have hline : f.nextLine crew conn = some (text "HELLO," ++ to_string (crew conn).id) := by rw [nextLine, hsent]; rfl
  have hstep := Step.line hopen hscan hline (f.coordinator.hello_processed conn scan ⟨(crew conn).id⟩)
  rw [ledger, if_pos hsent] at hstep
  exact hstep

/-- A worker at the first connection, and the one that is started in its place. -/
def restarted (conn : ℕ) : Worker :=
  if conn = 0 then ⟨1, text "1", 1, by decide, by decide, by decide, by decide⟩
  else ⟨1, text "2", 2, by decide, by decide, by decide, by decide⟩

theorem fleet_served_restarted : ((greet {} 0 [] ⟨1⟩).greet 1 [] ⟨1⟩).Serves restarted := by
  have hfirst : Step restarted {} (.line 0 []) (greet {} 0 [] ⟨1⟩) := .greets rfl (by decide +kernel) rfl
  have hsecond : Step restarted (greet {} 0 [] ⟨1⟩) (.line 1 []) ((greet {} 0 [] ⟨1⟩).greet 1 [] ⟨1⟩) :=
    .greets rfl (by decide +kernel) rfl
  refine fleet_served ⟨_, .cons ⟨hfirst, fun _ => ⟨by decide +kernel, fun g hg => by cases hg⟩, by decide⟩
    (.cons ⟨hsecond, fun _ => ⟨by decide +kernel, fun g hg _ => ?_⟩, by decide⟩ (.nil _))⟩
  obtain rfl := List.mem_singleton.1 hg
  exact by decide

end Fleet
end RuntimeRegistry
