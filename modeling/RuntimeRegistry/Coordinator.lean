import RuntimeRegistry.Bookkeeping
/-!
# The coordinator

One thread per connection reads messages and calls the shared registry, which
takes its lock for each call. A thread keeps the boot of its last HELLO and
reports that one dead when the connection closes. Beside the coordinator runs a
ledger of the answered HELLOs, which no code reads.
-/
open Lib

namespace RuntimeRegistry

/-! ## Connections -/

/-- The lines `handle_connection` understands, with their fields read into records. -/
inductive Message
  | HELLO (worker : WorkerId)
  | PING
  | QUERY (q : RegistryQuery)
  | REG_RT (rt : RuntimeDescriptor)
  | REG_SV (svc : ServiceDescriptor)
  | REG_EP (ep : EndpointDescriptor)
  | REG_CA (cap : CapabilityDescriptor)
  | REG_IN (inst : ServiceInstance)
  | UH (id : ServiceInstanceId) (h : Enum Health) (generation : ServiceInstanceGeneration)
  | UR (id : ServiceInstanceId) (rd : Enum Readiness) (generation : ServiceInstanceGeneration)

/-- The locals of `handle_connection`, and whether its loop has ended. -/
structure Session where
  boot : WorkerBootId := {}
  worker : WorkerId := {}
  has_worker : Bool := false
  closed : Bool := false

structure Coordinator where
  registry : Registry
  epoch : CoordinatorEpoch
  sessions : ℕ → Session := fun _ => {}

namespace Coordinator

/-- The coordinator as `main` starts it. -/
def start : Coordinator :=
  let reg := Registry.fresh.begin_coordinator_epoch
  { registry := reg, epoch := reg.authority.epoch }

/-- The branches behind the check of `has_worker`: one call under the envelope of
the session. -/
def mutate (c : Coordinator) (conn : ℕ) (scan : List ServiceInstanceId) (op : AuthorityEnvelope → Op) : Coordinator :=
  let s := c.sessions conn
  if !s.has_worker then c
  else { c with registry := (c.registry.exec scan (op { epoch := c.epoch, boot := s.boot })).2 }

/-- One round of the loop of `handle_connection`. -/
def handle (c : Coordinator) (conn : ℕ) (scan : List ServiceInstanceId) : Message → Coordinator
  | .HELLO worker =>
    let (boot, reg) := c.registry.adopt_worker worker
    { c with
      registry := reg
      sessions := Function.update c.sessions conn { worker := worker, boot := boot, has_worker := true } }
  | .PING | .QUERY _ => c
  | .REG_RT rt => c.mutate conn scan (.register_runtime rt)
  | .REG_SV svc => c.mutate conn scan (.register_service svc)
  | .REG_EP ep => c.mutate conn scan (.register_endpoint ep)
  | .REG_CA cap => c.mutate conn scan (.register_capability cap)
  | .REG_IN inst =>
    let s := c.sessions conn
    c.mutate conn scan (.register_instance { inst with worker := s.worker, boot := s.boot })
  | .UH id h generation =>
    c.mutate conn scan fun env => .update_health id h { env with service_instance_generation := generation }
  | .UR id rd generation =>
    c.mutate conn scan fun env => .update_readiness id rd { env with service_instance_generation := generation }

/-- The lines behind the loop of `handle_connection`. -/
def close (c : Coordinator) (conn : ℕ) : Coordinator :=
  let s := c.sessions conn
  { c with
    registry := if s.has_worker then c.registry.mark_worker_died s.boot else c.registry
    sessions := Function.update c.sessions conn { s with closed := true } }

end Coordinator

/-! ## Interleavings -/

/-- What one of the threads does next. -/
inductive Arrival
  | message (conn : ℕ) (scan : List ServiceInstanceId) (m : Message)
  | close (conn : ℕ)

def Arrival.conn : Arrival → ℕ
  | .message conn _ _ | .close conn => conn

/-- An answered HELLO. -/
structure Grant where
  boot : WorkerBootId
  conn : ℕ
  worker : WorkerId

/-- The coordinator with the HELLOs it answered, the latest first. -/
structure System where
  coordinator : Coordinator
  granted : List Grant := []

namespace System

def start : System := { coordinator := .start }

/-- One message or the end of one connection. -/
def next (s : System) : Arrival → System
  | .message conn scan m =>
    { coordinator := s.coordinator.handle conn scan m
      granted := match m with
        | .HELLO worker => ⟨(s.coordinator.registry.adopt_worker worker).1, conn, worker⟩ :: s.granted
        | _ => s.granted }
  | .close conn => { s with coordinator := s.coordinator.close conn }

/-- Any open connection may be the next to be served. -/
def Step (s : System) (a : Arrival) (t : System) : Prop :=
  (s.coordinator.sessions a.conn).closed = false ∧ t = s.next a

/-- The last HELLO for a worker. -/
def latest (s : System) (worker : WorkerId) : Option Grant := s.granted.find? fun g => g.worker = worker

/-- The last HELLO on a connection. -/
def lastOn (s : System) (conn : ℕ) : Option Grant := s.granted.find? fun g => g.conn = conn

/-- A HELLO does not wrap the counter, and a connection closes when the boots that
it was issued before its last one have been replaced. -/
def Orderly (s : System) : Arrival → Prop
  | .message _ _ (.HELLO _) => s.coordinator.registry.next_boot.toNat + 1 < 2 ^ 64
  | .message _ _ _ => True
  | .close conn => ∀ worker g, s.latest worker = some g → g.conn = conn → s.lastOn conn = some g

/-- A boot is live if its connection is open and its worker has sent no later
HELLO, and only then; and with every connection closed no boot is live. -/
structure Tracks (s : System) : Prop where
  live : ∀ later g earlier, s.granted = later ++ g :: earlier →
    (s.coordinator.registry.authority.is_boot_live g.boot = true ↔
      (s.coordinator.sessions g.conn).closed = false ∧ ∀ g' ∈ later, g'.worker ≠ g.worker)
  closed : (∀ g ∈ s.granted, (s.coordinator.sessions g.conn).closed = true) →
    ∀ b, s.coordinator.registry.authority.is_boot_live b = false

/-! ## The invariant -/

/-- What the sessions know of the ledger, and the registry of both. -/
structure Kept (s : System) : Prop where
  book : s.coordinator.registry.Bookkept
  distinct : (s.granted.map (·.boot)).Nodup
  bounded : ∀ g ∈ s.granted, g.boot.value.toNat ≤ s.coordinator.registry.next_boot.toNat
  current : ∀ worker, s.coordinator.registry.authority.holders.current worker =
    ((s.latest worker).filter fun g => !(s.coordinator.sessions g.conn).closed).map (·.boot)
  worker : ∀ conn, (s.coordinator.sessions conn).closed = false →
    (s.coordinator.sessions conn).has_worker = (s.lastOn conn).isSome
  boot : ∀ conn g, (s.coordinator.sessions conn).closed = false → s.lastOn conn = some g →
    (s.coordinator.sessions conn).boot = g.boot

variable {s : System} {conn : ℕ} {worker : WorkerId}

theorem latest_mem {g : Grant} (h : s.latest worker = some g) : g ∈ s.granted ∧ g.worker = worker :=
  ⟨List.mem_of_find?_eq_some h, by simpa using List.find?_some h⟩

theorem lastOn_mem {g : Grant} (h : s.lastOn conn = some g) : g ∈ s.granted ∧ g.conn = conn :=
  ⟨List.mem_of_find?_eq_some h, by simpa using List.find?_some h⟩

theorem Kept.same_boot (h : s.Kept) {g g' : Grant} (hg : g ∈ s.granted) (hg' : g' ∈ s.granted) (hb : g.boot = g'.boot) :
    g = g' := List.inj_on_of_nodup_map h.distinct hg hg' hb

/-- The last HELLO for a worker is the one without a later one for it. -/
theorem Kept.latest_iff (h : s.Kept) {later earlier : List Grant} {g : Grant} (hs : s.granted = later ++ g :: earlier) :
    s.latest g.worker = some g ↔ ∀ g' ∈ later, g'.worker ≠ g.worker := by
  have hsplit : s.latest g.worker = (later.find? fun g' => g'.worker = g.worker).or (some g) := by
    rw [latest, hs, List.find?_append, List.find?_cons_of_pos (by simp)]
  rw [hsplit]
  rcases hfind : later.find? fun g' => decide (g'.worker = g.worker) with _ | x <;> rw [hfind]
  · simpa using hfind
  · have hx : x ∈ later := List.mem_of_find?_eq_some hfind
    have hdistinct := h.distinct
    rw [hs, List.map_append, List.nodup_append] at hdistinct
    refine iff_of_false (fun hxg => ?_) fun hall => hall x hx (by simpa using List.find?_some hfind)
    obtain rfl : x = g := by simpa using hxg
    exact hdistinct.2.2 x.boot (List.mem_map_of_mem hx) x.boot (by simp) rfl

theorem Kept.tracks (h : s.Kept) : s.Tracks := by
  have hlive : ∀ b, s.coordinator.registry.authority.is_boot_live b = true ↔
      ∃ g, s.latest g.worker = some g ∧ (s.coordinator.sessions g.conn).closed = false ∧ g.boot = b := by
    intro b
    simp only [h.book.live b, ← h.book.matched _ b, h.current, Option.map_eq_some_iff, Option.filter_eq_some_iff,
      Bool.not_eq_true']
    constructor
    · rintro ⟨w, g, ⟨hg, hopen⟩, hb⟩
      obtain rfl := (latest_mem hg).2
      exact ⟨g, hg, hopen, hb⟩
    · exact fun ⟨g, hg, hopen, hb⟩ => ⟨g.worker, g, ⟨hg, hopen⟩, hb⟩
  refine ⟨fun later g earlier hs => ?live, fun hclosed b => ?closed⟩
  case live =>
    have hmem : g ∈ s.granted := by simp [hs]
    rw [hlive, ← h.latest_iff hs]
    constructor
    · rintro ⟨g', hg', hopen, hb⟩
      obtain rfl := h.same_boot (latest_mem hg').1 hmem hb
      exact ⟨hopen, hg'⟩
    · exact fun ⟨hopen, hg⟩ => ⟨g, hg, hopen, rfl⟩
  case closed =>
    by_contra hb
    obtain ⟨g, hg, hopen, _⟩ := (hlive b).1 (by simpa using hb)
    rw [hclosed g (latest_mem hg).1] at hopen
    cases hopen

theorem kept_start : start.Kept where
  book := Registry.bookkept_of_cleared rfl rfl rfl
  distinct := List.nodup_nil
  bounded := by simp [start]
  current worker := by simp [start, Coordinator.start, Registry.begin_coordinator_epoch, RegistryAuthority.holders, latest]
  worker _ _ := rfl
  boot _ _ _ h := by simp [start, lastOn] at h

/-! ## One step -/

/-- A call that leaves the incarnations and the counter alone leaves the rest as well. -/
theorem Kept.registry (h : s.Kept) {reg : Registry}
    (hsame : s.coordinator.registry.authority.SameIncarnations reg.authority)
    (hnext : reg.next_boot = s.coordinator.registry.next_boot) :
    Kept { s with coordinator := { s.coordinator with registry := reg } } where
  book := h.book.same hsame hnext
  distinct := h.distinct
  bounded g hg := by
    rw [hnext]
    exact h.bounded g hg
  current worker := by
    have hholders : reg.authority.holders = s.coordinator.registry.authority.holders := by
      simp only [RegistryAuthority.holders, hsame.current_boot, hsame.boot_worker]
    exact (congrArg (·.current worker) hholders).trans (h.current worker)
  worker := h.worker
  boot := h.boot

theorem Kept.mutate (h : s.Kept) (scan : List ServiceInstanceId) (op : AuthorityEnvelope → Op)
    (hop : ∀ env, (op env).class = .descriptor ∨ (op env).class = .inst) :
    Kept { s with coordinator := s.coordinator.mutate conn scan op } := by
  unfold Coordinator.mutate
  dsimp only
  split_ifs
  · exact h
  · have hclass : ∀ env, (op env).class ≠ .incarnation ∧ (op env).class ≠ .image := fun env => by
      rcases hop env with hc | hc <;> simp [hc]
    obtain ⟨hsame, hnext⟩ := s.coordinator.registry.exec_incarnations scan (op _) (hclass _).1 (hclass _).2
    exact h.registry hsame hnext

theorem latest_cons (c : Coordinator) (g : Grant) (gs : List Grant) (worker : WorkerId) :
    latest ⟨c, g :: gs⟩ worker = if g.worker = worker then some g else latest ⟨c, gs⟩ worker := by
  unfold latest
  rw [List.find?_cons]
  by_cases h : g.worker = worker <;> simp [h]

theorem lastOn_cons (c : Coordinator) (g : Grant) (gs : List Grant) (conn : ℕ) :
    lastOn ⟨c, g :: gs⟩ conn = if g.conn = conn then some g else lastOn ⟨c, gs⟩ conn := by
  unfold lastOn
  rw [List.find?_cons]
  by_cases h : g.conn = conn <;> simp [h]

theorem next_hello (s : System) (conn : ℕ) (scan : List ServiceInstanceId) (worker : WorkerId) :
    s.next (.message conn scan (.HELLO worker)) =
      { coordinator := { s.coordinator with
          registry := (s.coordinator.registry.adopt_worker worker).2
          sessions := Function.update s.coordinator.sessions conn
            { worker := worker, boot := s.coordinator.registry.nextBoot, has_worker := true } }
        granted := ⟨s.coordinator.registry.nextBoot, conn, worker⟩ :: s.granted } := rfl

theorem Kept.hello (h : s.Kept) (hopen : (s.coordinator.sessions conn).closed = false)
    (hroom : s.coordinator.registry.next_boot.toNat + 1 < 2 ^ 64) (scan : List ServiceInstanceId) :
    (s.next (.message conn scan (.HELLO worker))).Kept := by
  have hnext := Registry.nextBoot_toNat hroom
  rw [next_hello]
  refine ⟨h.book.adopt hroom worker, ?distinct, fun g hg => ?bounded, fun w => ?current, fun c hc => ?known,
    fun c g hc hg => ?last⟩ <;> dsimp only at *
  case distinct =>
    refine List.nodup_cons.2 ⟨fun hmem => ?_, h.distinct⟩
    obtain ⟨g, hg, hb⟩ := List.mem_map.1 hmem
    have hle := h.bounded g hg
    rw [hb, hnext] at hle
    omega
  case bounded =>
    have hnew : (s.coordinator.registry.adopt_worker worker).2.next_boot.toNat =
        s.coordinator.registry.nextBoot.value.toNat := by rw [Registry.adopt_next_boot, Registry.nextBoot]
    rw [hnew]
    rcases List.mem_cons.1 hg with rfl | hg
    · exact le_rfl
    · have hle := h.bounded g hg
      omega
  case current =>
    have hclosed : ∀ c, (Function.update s.coordinator.sessions conn
        { worker := worker, boot := s.coordinator.registry.nextBoot, has_worker := true } c).closed =
        (s.coordinator.sessions c).closed := by
      intro c
      by_cases hc : c = conn
      · rw [hc, Function.update_self, hopen]
      · rw [Function.update_of_ne hc]
    simp only [hclosed, h.book.holders_adopt hroom, h.book.matched.take_current, latest_cons, eq_comm (a := worker)]
    split_ifs with hw
    · simp [hopen]
    · exact h.current w
  case known =>
    rw [lastOn_cons]
    by_cases hcc : conn = c
    · simp [hcc]
    · rw [Function.update_of_ne (Ne.symm hcc)] at hc ⊢
      rw [if_neg hcc]
      exact h.worker c hc
  case last =>
    rw [lastOn_cons] at hg
    by_cases hcc : conn = c
    · rw [if_pos hcc, Option.some.injEq] at hg
      rw [hcc, Function.update_self, ← hg]
    · rw [Function.update_of_ne (Ne.symm hcc)] at hc ⊢
      rw [if_neg hcc] at hg
      exact h.boot c g hc hg

/-- What an orderly close leaves to each worker. -/
theorem Kept.close_current (h : s.Kept) (hopen : (s.coordinator.sessions conn).closed = false)
    (horderly : s.Orderly (.close conn)) (w : WorkerId) :
    (s.next (.close conn)).coordinator.registry.authority.holders.current w =
      ((s.latest w).filter fun g =>
        !(Function.update s.coordinator.sessions conn { s.coordinator.sessions conn with closed := true } g.conn).closed).map
        (·.boot) := by
  have hcur := h.current w
  have hknown := h.worker conn hopen
  simp only [next, Coordinator.close]
  rcases hlast : s.lastOn conn with _ | gl <;> rw [hlast] at hknown
  · -- nothing was issued on the connection
    rw [if_neg (by simpa using hknown), hcur]
    rcases hlatest : s.latest w with _ | g
    · rfl
    · have hne : g.conn ≠ conn := by
        simpa using List.find?_eq_none.1 hlast g (latest_mem hlatest).1
      simp only [Option.filter_some, Function.update_of_ne hne]
  · have hboot := h.boot conn gl hopen hlast
    rw [if_pos (by simpa using hknown), hboot, Registry.mark_worker_died, h.book.holders_revoke]
    change (if s.coordinator.registry.authority.holders.current w = some gl.boot then none else _) = _
    rw [hcur]
    rcases hlatest : s.latest w with _ | g
    · simp
    · by_cases hg : g.conn = conn
      · -- the worker's last boot is the last one of the connection, and dies with it
        obtain rfl : gl = g := Option.some.inj (hlast.symm.trans (horderly w g hlatest hg))
        simp [hg, hopen]
      · have hne : g.boot ≠ gl.boot := fun hb => hg (by
          rw [h.same_boot (latest_mem hlatest).1 (lastOn_mem hlast).1 hb]
          exact (lastOn_mem hlast).2)
        simp only [Option.filter_some, Function.update_of_ne hg]
        rcases (s.coordinator.sessions g.conn).closed <;> simp [hne]

theorem Kept.close (h : s.Kept) (hopen : (s.coordinator.sessions conn).closed = false)
    (horderly : s.Orderly (.close conn)) : (s.next (.close conn)).Kept := by
  have hother : ∀ c, (Function.update s.coordinator.sessions conn
      { s.coordinator.sessions conn with closed := true } c).closed = false → c ≠ conn := by
    rintro c hc rfl
    simp at hc
  have hbook : (s.next (.close conn)).coordinator.registry.Bookkept ∧
      (s.next (.close conn)).coordinator.registry.next_boot = s.coordinator.registry.next_boot := by
    simp only [next, Coordinator.close]
    split_ifs
    · exact ⟨h.book.revoke _, Registry.revoke_next_boot _ _⟩
    · exact ⟨h.book, rfl⟩
  refine ⟨hbook.1, h.distinct, fun g hg => ?bounded, h.close_current hopen horderly, fun c hc => ?known,
    fun c g hc hg => ?last⟩
  case bounded =>
    rw [hbook.2]
    exact h.bounded g hg
  case known =>
    have hne := hother c hc
    simp only [next, Coordinator.close, Function.update_of_ne hne] at hc ⊢
    exact h.worker c hc
  case last =>
    have hne := hother c hc
    simp only [next, Coordinator.close, Function.update_of_ne hne] at hc ⊢
    exact h.boot c g hc hg

/-- Every orderly step keeps the invariant. -/
theorem Kept.step {t : System} {a : Arrival} (h : s.Kept) (hs : Guarded Step Orderly s a t) : t.Kept := by
  obtain ⟨⟨hopen, rfl⟩, horderly⟩ := hs
  cases a with
  | close conn => exact h.close hopen horderly
  | message conn scan m =>
    cases m with
    | HELLO worker => exact h.hello hopen horderly scan
    | PING | QUERY => exact h
    | REG_RT rt => exact h.mutate scan (.register_runtime rt) fun _ => .inl rfl
    | REG_SV svc => exact h.mutate scan (.register_service svc) fun _ => .inl rfl
    | REG_EP ep => exact h.mutate scan (.register_endpoint ep) fun _ => .inl rfl
    | REG_CA cap => exact h.mutate scan (.register_capability cap) fun _ => .inl rfl
    | REG_IN inst => exact h.mutate scan (.register_instance _) fun _ => .inr rfl
    | UH id health generation =>
      exact h.mutate scan (fun env => .update_health id health { env with service_instance_generation := generation })
        fun _ => .inr rfl
    | UR id rd generation =>
      exact h.mutate scan (fun env => .update_readiness id rd { env with service_instance_generation := generation })
        fun _ => .inr rfl

/-! ## Every interleaving -/

/-- In every interleaving of orderly steps a boot is live just as long as its
connection is open and its worker has not sent another HELLO. -/
theorem hello_boots_tracked (h : Lib.Reachable (Guarded Step Orderly) start s) : s.Tracks :=
  (h.inv Kept kept_start fun _ _ _ hs hst => hs.step hst).tracks

/-- A worker that reconnects before its old connection is seen to close. -/
def reconnected : System :=
  ((start.next (.message 0 [] (.HELLO ⟨1⟩))).next (.message 1 [] (.HELLO ⟨1⟩))).next (.close 0)

theorem hello_boots_tracked_reconnect : reconnected.Tracks := by
  have hclose : ((start.next (.message 0 [] (.HELLO ⟨1⟩))).next (.message 1 [] (.HELLO ⟨1⟩))).Orderly (.close 0) := by
    intro worker g hg hconn
    rw [next_hello, next_hello, latest_cons, latest_cons] at hg
    split_ifs at hg
    · cases hg
      cases hconn
    · simp [latest, start] at hg
  refine hello_boots_tracked ⟨[.message 0 [] (.HELLO ⟨1⟩), .message 1 [] (.HELLO ⟨1⟩), .close 0], ?_⟩
  have hroom : start.Orderly (.message 0 [] (.HELLO ⟨1⟩)) := by
    change start.coordinator.registry.next_boot.toNat + 1 < 2 ^ 64
    decide +kernel
  have hroom' : (start.next (.message 0 [] (.HELLO ⟨1⟩))).Orderly (.message 1 [] (.HELLO ⟨1⟩)) := by
    change (start.next (.message 0 [] (.HELLO ⟨1⟩))).coordinator.registry.next_boot.toNat + 1 < 2 ^ 64
    decide +kernel
  exact .cons ⟨⟨rfl, rfl⟩, hroom⟩ (.cons ⟨⟨rfl, rfl⟩, hroom'⟩ (.cons ⟨⟨rfl, rfl⟩, hclose⟩ (.nil _)))

/-- A connection that greets for two workers and closes. -/
def leaking : System :=
  ((start.next (.message 0 [] (.HELLO ⟨1⟩))).next (.message 0 [] (.HELLO ⟨2⟩))).next (.close 0)

/-- The boot of the first worker outlives the connection it was issued on. -/
theorem hello_boot_leaks : Lib.Reachable Step start leaking ∧ ¬ leaking.Tracks := by
  refine ⟨⟨[.message 0 [] (.HELLO ⟨1⟩), .message 0 [] (.HELLO ⟨2⟩), .close 0], ?_⟩, fun h => ?_⟩
  · exact .cons ⟨rfl, rfl⟩ (.cons ⟨rfl, rfl⟩ (.cons ⟨rfl, rfl⟩ (.nil _)))
  · have hlive : leaking.coordinator.registry.authority.is_boot_live ⟨101⟩ = true := by decide +kernel
    have hclosed : ∀ g ∈ leaking.granted, (leaking.coordinator.sessions g.conn).closed = true := by decide +kernel
    rw [h.closed hclosed ⟨101⟩] at hlive
    cases hlive

end System

end RuntimeRegistry
