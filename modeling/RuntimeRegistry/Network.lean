import RuntimeRegistry.Fleet
import RuntimeRegistry.Links
/-!
# The coordinator and its workers, byte by byte

The workers and the handlers of the coordinator make their calls of `send` and `recv` in
any order, and each call moves as many bytes as the transport likes. What the coordinator
does is a run of the fleet, line by line, and what a worker hears are the answers to its
own lines, as long as no header of an answer is cut.
-/
open Lib

namespace RuntimeRegistry

/-! ## The frames of a script -/

namespace Worker

/-- The kinds under which the lines are sent. -/
def kinds : List MessageKind :=
  [.HELLO, .REGISTER_RUNTIME, .REGISTER_SERVICE, .REGISTER_ENDPOINT, .REGISTER_CAPABILITY, .REGISTER_SERVICE]

def frames (w : Worker) : List Frame := List.zipWith Frame.mk kinds w.script

theorem frames_payload (w : Worker) : w.frames.map Frame.payload = w.script := rfl

theorem frames_length (w : Worker) : w.frames.length = 6 := rfl

theorem num_length (n : ℕ) : (num n).length ≤ 20 :=
  Numeral.length_write (by decide) ((UInt64.ofNat n).toNat_lt.trans (by decide))

/-- No line of a worker is too long for a frame, if its generation is not. -/
theorem frames_fit (w : Worker) (hgen : w.gen.length ≤ 2 ^ 15) : ∀ f ∈ w.frames, f.Fits := by
  have hnum := num_length
  have hline : ∀ t ∈ w.script, t ≠ [] ∧ t.length ≤ 2 ^ 16 := by
    have hids := hnum w.workerId
    have hservice := hnum (100 + w.workerId)
    have hport := hnum (41000 + w.workerId)
    have htexts : (text "HELLO,").length = 6 ∧ (text "REG_RT,").length = 7 ∧ (text ",").length = 1 ∧
        (text ",1,native,cpp,x64").length = 17 ∧ (text "REG_SV,").length = 7 ∧ (text ",1,MODEL_SERVER,svc,CUDA").length = 24 ∧
        (text "REG_EP,").length = 7 ∧ (text "REG_CA,").length = 7 ∧ (text ",CUDA_AVAILABLE").length = 15 ∧
        (text "REG_IN,").length = 7 ∧ (text ",1,").length = 3 := by decide
    have hlong : ∀ t : Text, 0 < t.length ∧ t.length ≤ 2 ^ 16 → t ≠ [] ∧ t.length ≤ 2 ^ 16 :=
      fun t h => ⟨List.ne_nil_of_length_pos h.1, h.2⟩
    simp only [script, List.forall_mem_cons, List.not_mem_nil, false_implies, implies_true, and_true]
    refine ⟨hlong _ ?_, hlong _ ?_, hlong _ ?_, hlong _ ?_, hlong _ ?_, hlong _ ?_⟩ <;>
      (simp only [List.length_append]; omega)
  intro f hf
  have hmem : f.payload ∈ w.script := w.frames_payload ▸ List.mem_map_of_mem hf
  exact hline _ hmem

end Worker

/-! ## The network -/

/-- The fleet, and the connections of its workers. -/
structure Network where
  fleet : Fleet
  links : ℕ → Link

namespace Network

variable (crew : ℕ → Worker)

def start : Network := ⟨{}, fun conn => Link.start (crew conn).frames {}⟩

inductive Act
  | call (conn : ℕ)
  | line (conn : ℕ) (scan : List ServiceInstanceId) (payload : Text)
  | hangUp (conn : ℕ)

/-- What the coordinator makes of it: the calls are no business of the fleet. -/
def Act.moves : Act → List Fleet.Move
  | .call _ => []
  | .line conn scan _ => [.line conn scan]
  | .hangUp conn => [.close conn]

/-- The line that is handled at the connection. -/
def Act.lines (conn : ℕ) : Act → List Text
  | .line conn' _ payload => if conn' = conn then [payload] else []
  | .call _ | .hangUp _ => []

/-- A party makes a call; the handler of a connection gets a line and processes it; or it leaves its
loop, when the line is empty or a call has failed. -/
inductive Step : Network → Act → Network → Prop
  | call {n : Network} {conn : ℕ} {l : Link} (moves : Link.Moves (crew conn).frames (n.links conn) l) :
    Step n (.call conn) { n with links := Function.update n.links conn l }
  | line {n : Network} {conn k : ℕ} {scan : List ServiceInstanceId} {line : Text} {c : Coordinator} {reply : List UInt8}
    (hands : (n.links conn).Hands k line) (ne : line ≠ []) (walk : scan.Perm n.fleet.registry.instances.keys)
    (processed : n.fleet.coordinator.process conn scan line = .ok (c, reply)) :
    Step n (.line conn scan line) ⟨⟨⟨c, n.fleet.ledger crew conn⟩, Function.update n.fleet.sent conn (n.fleet.sent conn + 1)⟩,
      Function.update n.links conn ((n.links conn).handled k reply)⟩
  | hangUp {n : Network} {conn : ℕ} (isOpen : (n.links conn).handler ≠ .gone) :
    Step n (.hangUp conn) ⟨⟨⟨n.fleet.coordinator.close conn, n.fleet.system.granted⟩, n.fleet.sent⟩,
      Function.update n.links conn (n.links conn).hungUp⟩

/-- No counter wraps at a line, and a worker greets with a higher generation than those with
its id that greeted before. -/
def Orderly (n : Network) : Act → Prop
  | .line conn scan _ => n.fleet.Orderly crew (.line conn scan)
  | .call _ | .hangUp _ => True

/-- The connections are those of the fleet. -/
structure Kept (n : Network) : Prop where
  fleet : n.fleet.Kept crew
  reachable : Lib.Reachable (Guarded (Fleet.Step crew) (Fleet.Orderly crew)) {} n.fleet
  links : ∀ conn, (n.links conn).Kept (crew conn).frames (n.fleet.sent conn)
  closed : ∀ conn, (n.links conn).handler = .gone ↔ (n.fleet.coordinator.sessions conn).closed = true

variable {crew : ℕ → Worker} {n n' : Network} {conn : ℕ}

/-! ## What the coordinator answers -/

theorem Brief.fits {kind : MessageKind} {t : Text} (h : Coordinator.Brief t) : ({ kind := kind, payload := t } : Frame).Fits :=
  ⟨h.1, h.2.trans (by decide)⟩

theorem answer_fits {α : Type} {o : Outcome α} {done : α → Text} (hdone : ∀ a, Coordinator.Brief (done a))
    (herror : ∀ e, o.1 = .error e → Coordinator.Brief e.message) : (answer o done).Fits := by
  rcases o with ⟨e | a, r⟩
  · exact Brief.fits (herror e rfl)
  · exact Brief.fits (hdone a)

theorem mutate_registry (c : Coordinator) (conn : ℕ) (scan : List ServiceInstanceId) (op : AuthorityEnvelope → Op) :
    (c.mutate conn scan op).sessions = c.sessions ∧ ((c.mutate conn scan op).registry = c.registry ∨
      (c.mutate conn scan op).registry = (c.registry.exec scan (op (c.envelope conn))).2) := by
  rw [Coordinator.mutate]
  split_ifs
  · exact ⟨rfl, .inl rfl⟩
  · exact ⟨rfl, .inr rfl⟩

/-- A line of a worker does not crash the coordinator, its answer fits a frame, and only the
last line takes an id. -/
theorem answered {f : Fleet} (h : f.Kept crew) (hopen : (f.coordinator.sessions conn).closed = false) {line : Text}
    (hline : f.nextLine crew conn = some line) (scan : List ServiceInstanceId) : ∃ c frame,
      f.coordinator.process conn scan line = .ok (c, encode_frame frame) ∧ frame.Fits ∧
      (f.sent conn ≠ 5 → c.registry.next_id = f.registry.next_id) ∧
      ∀ conn', (c.sessions conn').closed = (f.coordinator.sessions conn').closed := by
  obtain ⟨m, hm, hread⟩ := h.processed hopen hline scan
  refine ⟨_, _, hread, ?_⟩
  by_cases hsent : f.sent conn = 0
  · rw [hsent] at hm
    cases hm
    refine ⟨Brief.fits (Coordinator.brief_number (by decide) (by decide) _), fun _ => ?_, fun conn' => ?_⟩
    · obtain ⟨_, _, _, _, _, hw⟩ := f.registry.adopt_worker_writes ⟨(crew conn).id⟩
      show (f.registry.adopt_worker ⟨(crew conn).id⟩).2.next_id = _
      rw [hw]
    · by_cases hc : conn' = conn
      · rw [hc, hopen]
        simp [Coordinator.handle]
      · exact congrArg Session.closed (Function.update_of_ne hc _ _)
  · obtain ⟨g, hg, rfl⟩ := h.grant hsent
    obtain ⟨op, hop⟩ := Fleet.messages_call _ hsent hm (f.coordinator.sessions g.conn)
    obtain ⟨done, hbrief, hreply⟩ := Coordinator.reply_call hop
    obtain ⟨hsessions, hregistry⟩ := mutate_registry f.coordinator g.conn scan op
    rw [Coordinator.handle_call hop, hsessions, hreply]
    by_cases hs : f.Serving g
    · obtain ⟨reply, t, hexec, hnext, _⟩ := h.put hs hm hop scan
      refine ⟨answer_fits hbrief fun e he => ?_, fun hlast => ?_, fun _ => rfl⟩
      · rw [hexec] at he
        cases he
      · rcases hregistry with hsame | hafter
        · rw [hsame]
        · rw [hafter, hexec]
          exact hnext hlast
    · obtain ⟨e, hexec, hmessage⟩ := Coordinator.exec_rejected_brief hop (mt (h.accepts_iff hg hopen).1 hs) scan
      refine ⟨answer_fits hbrief fun e' he => ?_, fun _ => ?_, fun _ => rfl⟩
      · rw [hexec] at he
        cases he
        exact hmessage
      · rcases hregistry with hsame | hafter
        · rw [hsame]
        · rw [hafter, hexec]

/-! ## Steps -/

/-- A line that the handler gets is the next one of the script. -/
theorem Kept.nextLine (h : n.Kept crew) (hfit : ∀ f ∈ (crew conn).frames, f.Fits) {k : ℕ} {line : Text}
    (hands : (n.links conn).Hands k line) (hne : line ≠ []) : n.fleet.nextLine crew conn = some line := by
  obtain ⟨hline, _⟩ := (h.links conn).hands hfit hands hne
  rwa [← List.getElem?_map, (crew conn).frames_payload] at hline

theorem Kept.open (h : n.Kept crew) (hopen : (n.links conn).handler ≠ .gone) :
    (n.fleet.coordinator.sessions conn).closed = false := by
  by_contra hclosed
  exact hopen ((h.closed conn).2 (by simpa using hclosed))

/-- What a step does to the fleet is a step of it, or nothing. -/
theorem Kept.refines {act : Act} (h : n.Kept crew) (hfit : ∀ conn, ∀ f ∈ (crew conn).frames, f.Fits)
    (hs : Guarded (Step crew) (Orderly crew) n act n') :
    Run (Guarded (Fleet.Step crew) (Fleet.Orderly crew)) n.fleet act.moves n'.fleet := by
  obtain ⟨hstep, horderly⟩ := hs
  cases hstep with
  | call moves => exact .nil _
  | line hands ne walk processed =>
    exact .single ⟨.line (h.open hands.open) walk (h.nextLine (hfit _) hands ne) processed, horderly⟩
  | hangUp isOpen => exact .single ⟨.close (h.open isOpen), trivial⟩

/-- A step handles the next line of the script, or none. -/
theorem Kept.handles {act : Act} (h : n.Kept crew) (hfit : ∀ conn, ∀ f ∈ (crew conn).frames, f.Fits)
    (hs : Guarded (Step crew) (Orderly crew) n act n') (conn : ℕ) :
    (crew conn).script.take (n'.fleet.sent conn) = (crew conn).script.take (n.fleet.sent conn) ++ act.lines conn := by
  obtain ⟨hstep, _⟩ := hs
  cases hstep with
  | call moves | hangUp isOpen => exact (List.append_nil _).symm
  | @line conn' k scan line c reply hands ne walk processed =>
    -- a line at another connection leaves the script of this one where it is
    by_cases hc : conn' = conn
    · subst hc
      have hnext : (crew conn').script[n.fleet.sent conn']? = some line := h.nextLine (hfit conn') hands ne
      dsimp only
      rw [Act.lines, if_pos rfl, Function.update_self, List.take_add_one, hnext]
      rfl
    · dsimp only
      rw [Act.lines, if_neg hc, Function.update_of_ne (Ne.symm hc), List.append_nil]

/-- Every orderly step keeps the connections those of the fleet. -/
theorem Kept.step {act : Act} (h : n.Kept crew) (hfit : ∀ conn, ∀ f ∈ (crew conn).frames, f.Fits)
    (hs : Guarded (Step crew) (Orderly crew) n act n') : n'.Kept crew := by
  have hfleet : n'.fleet.Kept crew ∧ Lib.Reachable (Guarded (Fleet.Step crew) (Fleet.Orderly crew)) {} n'.fleet := by
    have hrun := h.refines hfit hs
    exact ⟨hrun.inv (Fleet.Kept crew) (fun _ _ _ hk hm => hk.step hm) h.fleet, h.reachable.run hrun⟩
  obtain ⟨hstep, horderly⟩ := hs
  cases hstep with
  | @call conn l moves =>
    refine ⟨hfleet.1, hfleet.2, fun c => ?_, fun c => ?_⟩ <;> by_cases hc : c = conn
    · subst hc
      simp only [Function.update_self]
      exact (h.links c).moves moves
    · simp only [Function.update_of_ne hc]
      exact h.links c
    · subst hc
      simp only [Function.update_self]
      exact moves.handler.trans (h.closed c)
    · simp only [Function.update_of_ne hc]
      exact h.closed c
  | @line conn k scan line c reply hands ne walk processed =>
    have hopen := h.open hands.open
    have hline := h.nextLine (hfit conn) hands ne
    obtain ⟨c', frame, hprocess, hframe, _, hclosed⟩ := answered h.fleet hopen hline scan
    obtain ⟨rfl, rfl⟩ := Prod.mk.inj (Except.ok.inj (processed.symm.trans hprocess))
    obtain ⟨_, hhandled⟩ := (h.links conn).hands (hfit conn) hands ne
    refine ⟨hfleet.1, hfleet.2, fun d => ?_, fun d => ?_⟩ <;> by_cases hd : d = conn
    · subst hd
      simp only [Function.update_self]
      exact hhandled frame hframe
    · simp only [Function.update_of_ne hd]
      exact h.links d
    · subst hd
      simp only [Function.update_self]
      refine iff_of_false (Phase.sendFrom_ne_gone _) ?_
      rw [Fleet.coordinator, hclosed, hopen]
      decide
    · simp only [Function.update_of_ne hd]
      rw [Fleet.coordinator, hclosed]
      exact h.closed d
  | @hangUp conn isOpen =>
    refine ⟨hfleet.1, hfleet.2, fun c => ?_, fun c => ?_⟩ <;> by_cases hc : c = conn
    · subst hc
      simp only [Function.update_self]
      exact (h.links c).hungUp
    · simp only [Function.update_of_ne hc]
      exact h.links c
    · subst hc
      simp [Link.hungUp, Coordinator.close, Fleet.coordinator]
    · simp only [Function.update_of_ne hc, Coordinator.close]
      exact h.closed c

theorem kept_start (crew : ℕ → Worker) : (start crew).Kept crew where
  fleet := Fleet.kept_start
  reachable := .refl _
  links conn := Link.kept_start _
  closed conn := iff_of_false (fun h => by cases h) fun h => by cases h

/-! ## What the invariant says -/

/-- The lines that are handled are lines that were sent, and while no header of an answer is
cut, what the worker hears are the first answers it was told. -/
structure Faithful (n : Network) (conn : ℕ) : Prop where
  sent : n.fleet.sent conn ≤ (n.links conn).started
  heard : [] ∉ (n.links conn).heard → (n.links conn).heard <+: (n.links conn).told.map Frame.payload
  handled : [] ∉ (n.links conn).heard → (n.links conn).heard.length ≤ n.fleet.sent conn

theorem Kept.faithful (h : n.Kept crew) (conn : ℕ) : n.Faithful conn where
  sent := (h.links conn).sent_le
  heard hn := by
    have hprefix := List.take_prefix (n.links conn).heard.length (n.links conn).told
    rw [(h.links conn).heard hn]
    exact hprefix.map _
  handled hn := by
    rw [← (h.links conn).told_length]
    exact (h.links conn).heard_le hn

theorem kept_reachable (hgen : ∀ conn, (crew conn).gen.length ≤ 2 ^ 15)
    (h : Lib.Reachable (Guarded (Step crew) (Orderly crew)) (start crew) n) : n.Kept crew :=
  h.inv (Kept crew) (kept_start crew) fun _ _ _ hk hs => hk.step (fun conn => (crew conn).frames_fit (hgen conn)) hs

/-! ## How a worker gets through -/

/-- The parties at a connection can go on, and the counters leave room for the worker. -/
structure Ready (crew : ℕ → Worker) (n : Network) (conn : ℕ) : Prop where
  handler : (n.links conn).handler ≠ .gone
  worker : (n.links conn).worker ≠ .gone
  heard : [] ∉ (n.links conn).heard
  greets : n.fleet.sent conn = 0 → n.fleet.registry.next_boot.toNat + 1 < 2 ^ 64 ∧ n.fleet.Succeeding crew conn
  room : n.fleet.sent conn ≤ 5 → n.fleet.registry.next_id.toNat + 1 < 2 ^ 64

/-- The calls that are left, where an answer is never longer than a frame. -/
def callsLeft (crew : ℕ → Worker) (n : Network) (conn : ℕ) : ℕ :=
  (n.links conn).left (crew conn).frames + (2 * (14 + kMaxPayload.toNat)) * (6 - n.fleet.sent conn)

theorem encode_frame_length_le {f : Frame} (h : f.Fits) : (encode_frame f).length ≤ 14 + kMaxPayload.toNat := by
  have hlen := encode_frame_length h.2
  have hmax := h.2
  omega

/-- Calls and lines of the connection alone lead on to where the worker has heard all its answers. -/
def GetsThrough (crew : ℕ → Worker) (n : Network) (conn : ℕ) : Prop :=
  ∃ acts n', Run (Guarded (Step crew) (Orderly crew)) n acts n' ∧ (∀ a ∈ acts, a = .call conn ∨ ∃ scan line, a = .line conn scan line) ∧
    (n'.links conn).handler ≠ .gone ∧ [] ∉ (n'.links conn).heard ∧ (n'.links conn).heard.length = 6 ∧ n'.fleet.sent conn = 6

theorem Kept.gets_through (h : n.Kept crew) (hfit : ∀ conn, ∀ f ∈ (crew conn).frames, f.Fits) (hready : n.Ready crew conn) :
    n.GetsThrough crew conn := by
  -- on the calls that are left
  generalize hleft : n.callsLeft crew conn = k
  induction k using Nat.strong_induction_on generalizing n with
  | _ k ih =>
    have hsix : (crew conn).frames.length = 6 := (crew conn).frames_length
    rcases (h.links conn).moves_on (hfit conn) hready.handler hready.worker hready.heard with ⟨l, hl⟩ | ⟨k', line, hands, hne⟩
    · obtain ⟨n₁, hstep, hlink, hsame⟩ : ∃ n₁, Guarded (Step crew) (Orderly crew) n (.call conn) n₁ ∧ n₁.links conn = l ∧
          n₁.fleet = n.fleet := ⟨_, ⟨.call hl.moves, trivial⟩, Function.update_self _ _ _, rfl⟩
      have hkept := h.step hfit hstep
      by_cases halive : l.worker = .gone
      · -- the worker has heard the answer to its last line, which is handled
        have hall := hl.worker.resolve_left fun hne => hne halive
        have hl' := hkept.links conn
        have hheard := hl'.heard_le (hlink ▸ hl.heard)
        have htold := hl'.told_length
        have hsent := hl'.sent_le
        have hstarted := hl'.started_le
        rw [hlink] at hheard htold hsent hstarted
        refine ⟨_, n₁, .single hstep, List.forall_mem_singleton.2 (.inl rfl), ?_⟩
        rw [hlink]
        exact ⟨hl.handler, hl.heard, hall.trans hsix, by omega⟩
      · have hless : n₁.callsLeft crew conn < k := by
          have hcalls := hl.left
          rw [← hleft, callsLeft, callsLeft, hlink, hsame]
          omega
        obtain ⟨acts, n', hrun, hacts, hend⟩ := ih _ hless hkept ⟨hlink ▸ hl.handler, hlink ▸ halive, hlink ▸ hl.heard,
          hsame ▸ hready.greets, hsame ▸ hready.room⟩ rfl
        exact ⟨_, n', .cons hstep hrun, List.forall_mem_cons.2 ⟨.inl rfl, hacts⟩, hend⟩
    · have hopen := h.open hready.handler
      have hline := h.nextLine (hfit conn) hands hne
      obtain ⟨c, frame, hprocess, hframe, hnext, _⟩ := answered h.fleet hopen hline n.fleet.registry.instances.keys
      have hlt : n.fleet.sent conn < 6 := by
        obtain ⟨hlt, _⟩ := List.getElem?_eq_some_iff.1 hline
        rwa [Fleet.script_length] at hlt
      obtain ⟨n₁, hstep, hlink, hsent, hregistry⟩ : ∃ n₁, Guarded (Step crew) (Orderly crew) n
          (.line conn n.fleet.registry.instances.keys line) n₁ ∧
          n₁.links conn = (n.links conn).handled k' (encode_frame frame) ∧ n₁.fleet.sent conn = n.fleet.sent conn + 1 ∧
          n₁.fleet.registry = c.registry :=
        ⟨_, ⟨.line hands hne (.refl _) hprocess, hready.greets, fun hlast => hready.room (by omega)⟩,
          Function.update_self _ _ _, Function.update_self _ _ _, rfl⟩
      have hkept := h.step hfit hstep
      have hless : n₁.callsLeft crew conn < k := by
        have hhands : 0 < k' ∧ k' ≤ (n.links conn).up.length ∧ (n.links conn).handler.rest = [] := by
          obtain ⟨r, hphase, hpos, hle, _⟩ := hands
          exact ⟨hpos, hle, by rw [hphase]; rfl⟩
        obtain ⟨hpos, hle, hrest⟩ := hhands
        have hlong := encode_frame_length_le hframe
        rw [← hleft, callsLeft, callsLeft, hlink, hsent]
        simp only [Link.left, Link.handled, hrest, Phase.rest_sendFrom, List.length_drop, List.length_nil]
        have hsplit : 6 - n.fleet.sent conn = 6 - (n.fleet.sent conn + 1) + 1 := by omega
        rw [hsplit, Nat.mul_succ]
        omega
      have hready' : n₁.Ready crew conn := by
        refine ⟨?_, ?_, ?_, fun hzero => absurd (hsent.symm.trans hzero) (Nat.succ_ne_zero _), fun hle => ?_⟩
        · rw [hlink]
          exact Phase.sendFrom_ne_gone _
        · rw [hlink]
          exact hready.worker
        · rw [hlink]
          exact hready.heard
        · rw [hregistry, hnext (by omega)]
          exact hready.room (by omega)
      obtain ⟨acts, n', hrun, hacts, hend⟩ := ih _ hless hkept hready' rfl
      exact ⟨_, n', .cons hstep hrun, List.forall_mem_cons.2 ⟨.inr ⟨_, _, rfl⟩, hacts⟩, hend⟩

/-! ## Results -/

/-- However the transport cuts the bytes and whichever calls come first, the run is one of the
fleet, which gets its lines whole; the lines that are handled at a connection are the first ones
of its worker's script, each once and in order; and each worker hears the answers to its own. -/
theorem network_served (hgen : ∀ conn, (crew conn).gen.length ≤ 2 ^ 15) {acts : List Act}
    (h : Run (Guarded (Step crew) (Orderly crew)) (start crew) acts n) :
    Run (Guarded (Fleet.Step crew) (Fleet.Orderly crew)) {} (acts.flatMap Act.moves) n.fleet ∧ n.fleet.Serves crew ∧
      ∀ conn, acts.flatMap (Act.lines conn) = (crew conn).script.take (n.fleet.sent conn) ∧ n.Faithful conn := by
  have hfit := fun conn => (crew conn).frames_fit (hgen conn)
  have hkept := kept_reachable hgen ⟨acts, h⟩
  have hkeeps : ∀ m act m', Kept crew m → Guarded (Step crew) (Orderly crew) m act m' → Kept crew m' :=
    fun _ _ _ hk hs => hk.step hfit hs
  refine ⟨?_, hkept.fleet.serves, fun conn => ⟨?_, hkept.faithful conn⟩⟩
  · exact h.refines fleet hkeeps (fun _ _ _ hk hs => hk.refines hfit hs) (kept_start crew)
  · exact (h.output hkeeps (fun _ _ _ hk hs => hk.handles hfit hs conn) (kept_start crew)).symm

theorem restarted_fits (conn : ℕ) : (Fleet.restarted conn).gen.length ≤ 2 ^ 15 := by
  unfold Fleet.restarted
  split <;> decide

/-- The first worker is ready as long as nothing is handled and its handler waits. -/
theorem ready_idle (hfleet : n.fleet = {}) (hidle : (n.links 0).handler = .reading .header ∧ (n.links 0).heard = [])
    (hworker : (n.links 0).worker ≠ .gone) : n.Ready Fleet.restarted 0 where
  handler := by simp [hidle.1]
  worker := hworker
  heard := by simp [hidle.2]
  greets _ := by
    rw [hfleet]
    exact ⟨by decide +kernel, fun g hg => by cases hg⟩
  room _ := by
    rw [hfleet]
    decide +kernel

/-- A run in which the first worker gets through its script. -/
theorem network_served_through :
    ∃ acts n, Run (Guarded (Step Fleet.restarted) (Orderly Fleet.restarted)) (start Fleet.restarted) acts n ∧
    acts.flatMap (Act.lines 0) = (Fleet.restarted 0).script ∧ n.fleet.Serves Fleet.restarted ∧ n.Faithful 0 := by
  have hready := ready_idle (n := start Fleet.restarted) rfl ⟨rfl, rfl⟩
    (Phase.sendFrom_ne_gone (encode_frame ⟨.HELLO, text "HELLO,1"⟩))
  obtain ⟨acts, n, hrun, _, _, _, _, hsent⟩ :=
    (kept_start Fleet.restarted).gets_through (fun conn => (Fleet.restarted conn).frames_fit (restarted_fits conn)) hready
  obtain ⟨_, hserves, hconn⟩ := network_served restarted_fits hrun
  obtain ⟨hlines, hfaithful⟩ := hconn 0
  rw [hsent] at hlines
  exact ⟨acts, n, hrun, hlines, hserves, hfaithful⟩

/-- Wherever a worker stands whose connection is open and who has cut no header, it can get
through its script, however its calls and those of its handler were cut before. -/
theorem worker_gets_through (hgen : ∀ conn, (crew conn).gen.length ≤ 2 ^ 15)
    (h : Lib.Reachable (Guarded (Step crew) (Orderly crew)) (start crew) n) (hready : n.Ready crew conn) :
    n.GetsThrough crew conn :=
  (kept_reachable hgen h).gets_through (fun conn => (crew conn).frames_fit (hgen conn)) hready

/-- The first bytes of a greeting are on the way. -/
def greeting : Network :=
  { start Fleet.restarted with links := Function.update (start Fleet.restarted).links 0 { (start Fleet.restarted).links 0 with
      up := (encode_frame ⟨.HELLO, text "HELLO,1"⟩).take 5
      worker := .sendFrom ((encode_frame ⟨.HELLO, text "HELLO,1"⟩).drop 5) } }

theorem greeting_reachable :
    Lib.Reachable (Guarded (Step Fleet.restarted) (Orderly Fleet.restarted)) (start Fleet.restarted) greeting := by
  have hne : encode_frame ⟨.HELLO, text "HELLO,1"⟩ ≠ [] := by decide +kernel
  have hphase : ((start Fleet.restarted).links 0).worker = .sending (encode_frame ⟨.HELLO, text "HELLO,1"⟩) := by
    show Phase.sendFrom (encode_frame ⟨.HELLO, text "HELLO,1"⟩) = _
    rw [Phase.sendFrom, if_neg hne]
  have hmoves : Link.Moves (Fleet.restarted 0).frames ((start Fleet.restarted).links 0) _ :=
    .send (n := 5) hphase (by decide) (by decide +kernel)
  exact ⟨_, .single ⟨.call hmoves, trivial⟩⟩

theorem worker_gets_through_greeting : greeting.GetsThrough Fleet.restarted 0 :=
  worker_gets_through restarted_fits greeting_reachable (ready_idle rfl ⟨rfl, rfl⟩
    (Phase.sendFrom_ne_gone ((encode_frame ⟨.HELLO, text "HELLO,1"⟩).drop 5)))

end Network

end RuntimeRegistry
