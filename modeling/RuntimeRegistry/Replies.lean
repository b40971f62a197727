import RuntimeRegistry.Lib.Attempts
import RuntimeRegistry.Requests
/-!
# Which lines are answered

A line is answered if the fields that its command reads are there, the numbers among
them can be read, and the reply fits into a frame. Anything less ends the process or
leaves the sender without a reply.
-/
open Lib

namespace RuntimeRegistry

variable {p : List Text} {i : ℕ} {β : Type}

/-! ## What a command needs -/

inductive Need
  | text
  | unsigned
  | signed

/-- The field is what is needed: any text, a number of 64 bits at its head, or an
`int` at its head. -/
def Need.Holds : Need → Text → Prop
  | .text, _ => True
  | .unsigned, t => ∃ n, Numeral.read t = some n ∧ n.magnitude < 2 ^ 64
  | .signed, t => ∃ n, Numeral.read t = some n ∧ n.magnitude < 2 ^ 31 + if n.negative then 1 else 0

/-- The fields that a command reads, by position. -/
def needs (has_worker : Bool) (op : Text) : List (ℕ × Need) :=
  if op = text "HELLO" then [(1, .unsigned)]
  else if op = text "PING" then []
  else if op = text "QUERY" then [(1, .text)]
  else if !has_worker then []
  else if op = text "REG_RT" then [(1, .unsigned), (2, .unsigned), (3, .unsigned), (4, .text), (5, .text), (6, .text)]
  else if op = text "REG_SV" then [(1, .unsigned), (2, .unsigned), (3, .text), (4, .text)]
  else if op = text "REG_EP" then [(1, .unsigned), (2, .unsigned), (3, .text), (3, .signed)]
  else if op = text "REG_CA" then [(1, .unsigned), (2, .text)]
  else if op = text "REG_IN" then
    [(1, .unsigned), (2, .unsigned), (3, .unsigned), (4, .unsigned), (5, .unsigned), (6, .unsigned), (7, .unsigned)]
  else if op = text "UH" then [(3, .unsigned), (1, .unsigned), (2, .text)]
  else if op = text "UR" then [(3, .unsigned), (1, .unsigned), (2, .text)]
  else []

/-- Every field that is needed is there, and is what is needed. -/
def Provides (p : List Text) (needs : List (ℕ × Need)) : Prop := ∀ r ∈ needs, ∃ t, p[r.1]? = some t ∧ r.2.Holds t

/-! ## What the branches read -/

theorem split_ne_nil (s : Text) (sep : UInt8) : split s sep ≠ [] := by
  rw [split]
  simp

theorem foldl_splitRound_of_notMem {sep : UInt8} {s : Text} (h : sep ∉ s) (out : List Text) (cur : Text) :
    s.foldl (splitRound sep) (out, cur) = (out, cur ++ s) := by
  induction s generalizing cur with
  | nil => rw [List.append_nil]; rfl
  | cons c s ih =>
    rw [List.mem_cons, not_or] at h
    have hc : ¬ c = sep := fun hc => h.1 hc.symm
    rw [List.foldl_cons, splitRound, if_neg hc, ih h.2, List.append_assoc]
    rfl

theorem foldl_splitRound_out (sep : UInt8) (s : Text) (out : List Text) (cur : Text) :
    s.foldl (splitRound sep) (out, cur) =
      (out ++ (s.foldl (splitRound sep) ([], cur)).1, (s.foldl (splitRound sep) ([], cur)).2) := by
  induction s generalizing out cur with
  | nil => simp
  | cons c s ih =>
    rw [List.foldl_cons, List.foldl_cons]
    by_cases hc : c = sep
    · simp only [splitRound, if_pos hc, List.nil_append]
      rw [ih (out ++ [cur]), ih [cur], List.append_assoc]
    · simp only [splitRound, if_neg hc]
      rw [ih]

theorem split_of_notMem {sep : UInt8} {s : Text} (h : sep ∉ s) : split s sep = [s] := by
  rw [split, foldl_splitRound_of_notMem h]
  rfl

theorem split_append_cons {sep : UInt8} {a : Text} (h : sep ∉ a) (b : Text) :
    split (a ++ sep :: b) sep = a :: split b sep := by
  have hround : splitRound sep ([], a) sep = ([a], []) := if_pos rfl
  rw [split, split, List.foldl_append, foldl_splitRound_of_notMem h, List.foldl_cons, List.nil_append, hround,
    foldl_splitRound_out]
  rfl

/-- What `std::to_string` writes, `std::stoull` reads. -/
theorem stoull_to_string (v : UInt64) : stoull (to_string v) = .ok v := by
  have hread : Numeral.read (to_string v) = some ⟨false, v.toNat⟩ := Numeral.read_write v.toNat
  rw [stoull, hread]
  dsimp only
  rw [if_pos v.toNat_lt]
  exact congrArg Except.ok UInt64.ofNat_toNat

theorem stoull_succeeds_iff (t : Text) : Succeeds (stoull t) ↔ Need.unsigned.Holds t := by
  show _ ↔ ∃ n, Numeral.read t = some n ∧ n.magnitude < 2 ^ 64
  unfold stoull
  rcases Numeral.read t with _ | n
  · exact iff_of_false (not_succeeds_error _) (by simp)
  · simp only [Option.some.injEq, exists_eq_left']
    by_cases h : n.magnitude < 2 ^ 64
    · rw [if_pos h]
      exact iff_of_true (succeeds_ok _) h
    · rw [if_neg h]
      exact iff_of_false (not_succeeds_error _) h

theorem stoi_succeeds_iff (t : Text) : Succeeds (stoi t) ↔ Need.signed.Holds t := by
  show _ ↔ ∃ n, Numeral.read t = some n ∧ n.magnitude < 2 ^ 31 + if n.negative then 1 else 0
  unfold stoi
  rcases Numeral.read t with _ | ⟨negative, magnitude⟩
  · exact iff_of_false (not_succeeds_error _) (by simp)
  · have hrange : (-2 ^ 31 ≤ (if negative then -magnitude else magnitude : Int) ∧
        (if negative then -magnitude else magnitude : Int) < 2 ^ 31) ↔ magnitude < 2 ^ 31 + if negative then 1 else 0 := by
      cases negative
      · simp only [Bool.false_eq_true, if_false]
        omega
      · simp only [if_true]
        omega
    simp only [hrange, Option.some.injEq, exists_eq_left']
    by_cases h : magnitude < 2 ^ 31 + if negative then 1 else 0
    · rw [if_pos h]
      exact iff_of_true (succeeds_ok _) h
    · rw [if_neg h]
      exact iff_of_false (not_succeeds_error _) h

theorem nothing_reads (a : β) : Succeeds (pure a : Except Crash β) ↔ Provides p [] := by
  exact iff_of_true (succeeds_pure a) (List.forall_mem_nil _)

/-- A field is read by `read`, and the rest of the branch does not depend on what it is. -/
theorem number_reads {α : Type} {read : Text → Except Crash α} {need : Need} (hread : ∀ t, Succeeds (read t) ↔ need.Holds t)
    {k : α → Except Crash β} {ns : List (ℕ × Need)} (h : ∀ v, Succeeds (k v) ↔ Provides p ns) :
    Succeeds (field p i >>= fun t => read t >>= k) ↔ Provides p ((i, need) :: ns) := by
  rw [Provides, List.forall_mem_cons]
  unfold field
  rcases p[i]? with _ | t
  · exact iff_of_false (not_succeeds_error _) (by simp)
  · have hbind := succeeds_bind (x := read t) fun v _ => h v
    simp only [Option.some.injEq, exists_eq_left']
    rw [← hread]
    exact hbind

theorem unsigned_reads {k : UInt64 → Except Crash β} {ns : List (ℕ × Need)} (h : ∀ v, Succeeds (k v) ↔ Provides p ns) :
    Succeeds (field p i >>= fun t => stoull t >>= k) ↔ Provides p ((i, .unsigned) :: ns) :=
  number_reads stoull_succeeds_iff h

theorem signed_reads {k : Int32 → Except Crash β} {ns : List (ℕ × Need)} (h : ∀ v, Succeeds (k v) ↔ Provides p ns) :
    Succeeds (field p i >>= fun t => stoi t >>= k) ↔ Provides p ((i, .signed) :: ns) :=
  number_reads stoi_succeeds_iff h

theorem text_reads {k : Text → Except Crash β} {ns : List (ℕ × Need)} (h : ∀ t, Succeeds (k t) ↔ Provides p ns) :
    Succeeds (field p i >>= k) ↔ Provides p ((i, .text) :: ns) := by
  have hread : ∀ t, Succeeds (pure t : Except Crash Text) ↔ Need.text.Holds t :=
    fun t => iff_of_true (succeeds_pure t) trivial
  exact number_reads hread h

theorem ite_reads {c : Prop} [Decidable c] {x y : Except Crash β} {ns ms : List (ℕ × Need)}
    (hx : Succeeds x ↔ Provides p ns) (hy : Succeeds y ↔ Provides p ms) :
    Succeeds (if c then x else y) ↔ Provides p (if c then ns else ms) := by
  by_cases h : c
  · rwa [if_pos h, if_pos h]
  · rwa [if_neg h, if_neg h]

/-- The request is read if the fields that its command needs are there. -/
theorem request_succeeds_iff (has_worker : Bool) (op : Text) (args : List Text) :
    Succeeds (request has_worker (op :: args)) ↔ Provides (op :: args) (needs has_worker op) := by
  generalize hp : op :: args = p
  have hfield : field p 0 = .ok op := by rw [← hp]; rfl
  unfold request needs
  rw [hfield]
  refine ite_reads (unsigned_reads fun _ => nothing_reads _) ?_
  refine ite_reads (nothing_reads _) ?_
  refine ite_reads (text_reads fun _ => nothing_reads _) ?_
  refine ite_reads (nothing_reads _) ?_
  refine ite_reads (unsigned_reads fun _ => unsigned_reads fun _ => unsigned_reads fun _ => text_reads fun _ =>
    text_reads fun _ => text_reads fun _ => nothing_reads _) ?_
  refine ite_reads (unsigned_reads fun _ => unsigned_reads fun _ => text_reads fun _ => text_reads fun _ =>
    nothing_reads _) ?_
  refine ite_reads (unsigned_reads fun _ => unsigned_reads fun _ => text_reads fun _ => signed_reads fun _ =>
    nothing_reads _) ?_
  refine ite_reads (unsigned_reads fun _ => text_reads fun _ => nothing_reads _) ?_
  refine ite_reads (unsigned_reads fun _ => unsigned_reads fun _ => unsigned_reads fun _ => unsigned_reads fun _ =>
    unsigned_reads fun _ => unsigned_reads fun _ => unsigned_reads fun _ => nothing_reads _) ?_
  refine ite_reads (unsigned_reads fun _ => unsigned_reads fun _ => text_reads fun _ => nothing_reads _) ?_
  refine ite_reads (unsigned_reads fun _ => unsigned_reads fun _ => text_reads fun _ => nothing_reads _) ?_
  exact nothing_reads _

/-! ## Which command a request is -/

def Message.isQuery : Message → Bool
  | .QUERY _ => true
  | _ => false

/-- The request is a refusal, or a message other than a query. -/
def NoQuery : Request → Prop
  | .refused t => t = text "NO_WORKER" ∨ t = text "UNKNOWN_OP"
  | .message m => m.isQuery = false

/-- Where the first field is not `QUERY`, no query is read. -/
theorem request_noQuery (has_worker : Bool) {op : Text} (args : List Text) (hop : op ≠ text "QUERY") :
    Ensures NoQuery (request has_worker (op :: args)) := by
  generalize hp : op :: args = p
  have hfield : field p 0 = .ok op := by rw [← hp]; rfl
  unfold request
  rw [hfield]
  refine ensures_ite (fun _ => ?_) fun _ => ?_
  · repeat refine ensures_bind fun _ _ => ?_
    exact ensures_pure rfl
  refine ensures_ite (fun _ => ensures_pure rfl) fun _ => ?_
  refine ensures_ite (fun h => absurd h hop) fun _ => ?_
  refine ensures_ite (fun _ => ensures_pure (.inl rfl)) fun _ => ?_
  -- the branches of the mutations
  iterate 7
    refine ensures_ite (fun _ => ?_) fun _ => ?_
    · repeat refine ensures_bind fun _ _ => ?_
      exact ensures_pure rfl
  exact ensures_pure (.inr rfl)

/-! ## The length of a reply -/

theorem to_string_length (v : UInt64) : (to_string v).length ≤ 20 := by
  have h := v.toNat_lt
  exact Numeral.length_write (by decide) (by omega)

/-- What the call throws has a short text. -/
def ThrowsShort {α : Type} (o : Outcome α) : Prop := ∀ e, o.1 = .error e → e.message.length ≤ 200

namespace Registry

variable {α : Type} {r : Registry} {env : AuthorityEnvelope}

theorem throwsShort_ok (a : α) (r : Registry) : ThrowsShort (.ok a, r) := by
  rintro e ⟨⟩

theorem throwsShort_error {kind : ErrorKind} {message : Text} (h : message.length ≤ 200) (r : Registry) :
    ThrowsShort ((.error ⟨kind, message⟩, r) : Outcome α) := by
  rintro e ⟨⟩
  exact h

theorem throwsShort_authorized {body : Outcome α} (h : ThrowsShort body) : ThrowsShort (r.authorized env body) := by
  have hepoch := to_string_length env.epoch.value
  have hcurrent := to_string_length r.authority.epoch.value
  have hboot := to_string_length env.boot.value
  unfold authorized validate_envelope
  split_ifs
  · apply throwsShort_error
    simp only [List.length_append]
    have h₁ : (text "epoch ").length = 6 := rfl
    have h₂ : (text " is stale; current epoch ").length = 25 := rfl
    omega
  · apply throwsShort_error
    simp only [List.length_append]
    have h₁ : (text "boot ").length = 5 := rfl
    have h₂ : (text " is not a live incarnation").length = 26 := rfl
    omega
  · exact h

theorem throwsShort_registerRecord {tag : IdTag} {gen : GenTag} {ρ : Type} (D : Domain tag gen ρ) (x : ρ)
    (hstale : ∀ current, (D.stale x current).message.length ≤ 200) (hfence : ∀ f ∈ D.fence, f.message.length ≤ 200) :
    ThrowsShort (registerRecord D r x env) := by
  apply throwsShort_authorized
  split
  · split_ifs
    · exact throwsShort_ok _ _
    · exact throwsShort_error (hstale _) _
    · exact throwsShort_ok _ _
  · split
    · rename_i f hf
      exact throwsShort_error (hfence f (Option.eq_some_of_filter_eq_some hf)) _
    · exact throwsShort_ok _ _

theorem throwsShort_register_runtime (rt : RuntimeDescriptor) : ThrowsShort (r.register_runtime rt env) := by
  have hgen := to_string_length rt.generation.value
  refine throwsShort_registerRecord runtimes_ rt (fun _ => ?_) ?_
  · simp only [runtimes_, List.length_append]
    have h : (text "stale RuntimeGeneration ").length = 24 := rfl
    omega
  · rintro f ⟨⟩
    decide

theorem throwsShort_register_endpoint (ep : EndpointDescriptor) : ThrowsShort (r.register_endpoint ep env) := by
  have hgen := to_string_length ep.generation.value
  refine throwsShort_registerRecord endpoints_ ep (fun _ => ?_) ?_
  · simp only [endpoints_, List.length_append]
    have h : (text "stale EndpointGeneration ").length = 25 := rfl
    omega
  · rintro f ⟨⟩
    decide

theorem throwsShort_register_capability (cap : CapabilityDescriptor) : ThrowsShort (r.register_capability cap env) := by
  have hgen := to_string_length cap.generation.value
  refine throwsShort_registerRecord capabilities_ cap (fun _ => ?_) ?_
  · simp only [capabilities_, List.length_append]
    have h : (text "stale CapabilityGeneration ").length = 27 := rfl
    omega
  · rintro f ⟨⟩
    decide

theorem throwsShort_void {o : Outcome α} (h : ThrowsShort o) : ThrowsShort o.void := by
  intro e he
  exact h e ((Outcome.void_fst_error o e).1 he)

theorem throwsShort_register_service (svc : ServiceDescriptor) : ThrowsShort (r.register_service svc env) := by
  have hgen := to_string_length svc.generation.value
  refine throwsShort_void (throwsShort_registerRecord services_ svc (fun current => ?_) ?_)
  · have hcurrent := to_string_length current.generation.value
    simp only [services_, List.length_append]
    have h₁ : (text "registration rejected because ServiceGeneration ").length = 48 := rfl
    have h₂ : (text " is stale; current ").length = 19 := rfl
    omega
  · rintro f ⟨⟩
    decide

theorem throwsShort_claimEndpoints (id : ServiceInstanceId) (eids : List EndpointId) (r : Registry) :
    ThrowsShort (r.claimEndpoints id eids) := by
  induction eids generalizing r with
  | nil => exact throwsShort_ok _ _
  | cons eid eids ih =>
    have hone : ThrowsShort (r.claimEndpoint id eid) := by
      unfold claimEndpoint
      split
      · exact throwsShort_error (by decide) _
      · split_ifs
        · exact throwsShort_ok _ _
        · exact throwsShort_error (by decide) _
        · exact throwsShort_ok _ _
        · exact throwsShort_ok _ _
    rw [claimEndpoints]
    rcases h : r.claimEndpoint id eid with ⟨e | _, s⟩
    · exact throwsShort_error (hone e (by rw [h])) s
    · exact ih s

theorem throwsShort_bindInstance (r : Registry) (copy : ServiceInstance) : ThrowsShort (r.bindInstance copy) := by
  have hclaim := throwsShort_claimEndpoints copy.instance_id copy.endpoints r
  refine bindInstance_rule (P := ThrowsShort) (fun e s h => ?_) fun s h => throwsShort_ok _ _
  exact throwsShort_error (hclaim e (by rw [h])) s

theorem throwsShort_register_instance (scan : List ServiceInstanceId) (inst : ServiceInstance) :
    ThrowsShort (r.register_instance scan inst env) := by
  have hgen := to_string_length inst.instance_generation.value
  apply throwsShort_authorized
  split
  · exact throwsShort_error (by decide) _
  rw [assignInstance_eq]
  dsimp only
  split
  · rename_i id current _
    have hcurrent := to_string_length current.instance_generation.value
    split_ifs
    · exact throwsShort_ok _ _
    · apply throwsShort_error
      simp only [List.length_append]
      have h₁ : (text "registration rejected because ServiceInstanceGeneration ").length = 56 := rfl
      have h₂ : (text " is stale; current ").length = 19 := rfl
      omega
    · exact throwsShort_bindInstance _ _
  · split_ifs
    · exact throwsShort_error (by decide) _
    · exact throwsShort_bindInstance _ _

theorem throwsShort_updateInstance (id : ServiceInstanceId) (write : ServiceInstance → ServiceInstance)
    {stale : RegistryError} (hstale : stale.message.length ≤ 200) : ThrowsShort (r.updateInstance id write stale env) := by
  apply throwsShort_authorized
  split
  · exact throwsShort_error (by decide) _
  · split_ifs
    · exact throwsShort_error hstale _
    · exact throwsShort_ok _ _

end Registry

theorem answer_length {α : Type} {o : Outcome α} {done : α → Text} (h : ThrowsShort o) (hdone : ∀ a, (done a).length ≤ 200) :
    (answer o done).payload.length ≤ 200 := by
  unfold answer
  split
  · exact hdone _
  · rename_i e he
    exact h e he

theorem answer_kind {α : Type} (o : Outcome α) (done : α → Text) : (answer o done).kind = .ACK ∨ (answer o done).kind = .ERROR := by
  unfold answer
  split
  · exact .inl rfl
  · exact .inr rfl

/-- Every reply but that to a query is short. -/
theorem reply_length (c : Coordinator) (conn : ℕ) (scan : List ServiceInstanceId) {m : Message} (hm : m.isQuery = false) :
    (c.reply conn scan m).payload.length ≤ 200 := by
  cases m with
  | HELLO worker =>
    have hboot := to_string_length (c.registry.adopt_worker worker).1.value
    have h : (text "BOOT=").length = 5 := rfl
    simp only [Coordinator.reply, List.length_append]
    omega
  | PING => exact (by decide : (text "PONG").length ≤ 200)
  | QUERY q => cases hm
  | REG_RT rt => exact answer_length (Registry.throwsShort_register_runtime rt) fun _ => by decide
  | REG_SV svc => exact answer_length (Registry.throwsShort_register_service svc) fun _ => by decide
  | REG_EP ep => exact answer_length (Registry.throwsShort_register_endpoint ep) fun _ => by decide
  | REG_CA cap => exact answer_length (Registry.throwsShort_register_capability cap) fun _ => by decide
  | REG_IN inst =>
    refine answer_length (Registry.throwsShort_register_instance scan _) fun id => ?_
    have hid := to_string_length id.value
    have h : (text "ID=").length = 3 := rfl
    rw [List.length_append]
    omega
  | UH id h generation => exact answer_length (Registry.throwsShort_updateInstance id _ (by decide)) fun _ => by decide
  | UR id rd generation => exact answer_length (Registry.throwsShort_updateInstance id _ (by decide)) fun _ => by decide

/-- The kinds of a reply. -/
def IsReply (k : MessageKind) : Prop := k = .ACK ∨ k = .QUERY_RESULT ∨ k = .ERROR

theorem reply_kind (c : Coordinator) (conn : ℕ) (scan : List ServiceInstanceId) (m : Message) :
    IsReply (c.reply conn scan m).kind := by
  have hanswer : ∀ {α : Type} (o : Outcome α) (done : α → Text), IsReply (answer o done).kind := by
    intro α o done
    rcases answer_kind o done with h | h
    · exact .inl h
    · exact .inr (.inr h)
  cases m with
  | HELLO worker => exact .inl rfl
  | PING => exact .inl rfl
  | QUERY q => exact .inr (.inl rfl)
  | _ => exact hanswer _ _

/-- A frame goes out if its payload is within the bound, and only then: beyond it no
byte is sent, or more than any frame has. -/
theorem sent_iff {f : Frame} (hkind : IsReply f.kind) :
    (∃ g : Frame, encode_frame f = encode_frame g ∧ g.payload.length ≤ kMaxPayload.toNat ∧ IsReply g.kind) ↔
      f.payload.length ≤ kMaxPayload.toNat := by
  constructor
  · rintro ⟨g, hfg, hg, -⟩
    have hlength := encode_frame_length hg
    rcases encode_frame_length_cases f with hnone | hf
    · rw [← hfg, hnone] at hlength
      simp at hlength
    · rw [hfg] at hf
      omega
  · intro h
    exact ⟨f, rfl, h, hkind⟩

theorem result_text_length (res : RegistryResult) :
    (result_text res).length =
      7 + res.outcome.to_string.length + (res.rankedIds.map fun id => 1 + (to_string id.value).length).sum := by
  have hfold : ∀ (ranked : List CandidateScore) (out : Text),
      (ranked.foldl (fun out cs => out ++ (text "," ++ to_string cs.instance_id.value)) out).length =
        out.length + ((ranked.map (·.instance_id)).map fun id => 1 + (to_string id.value).length).sum := by
    intro ranked
    induction ranked with
    | nil => intro out; simp
    | cons cs ranked ih =>
      intro out
      have h : (text ",").length = 1 := rfl
      simp only [List.foldl_cons, ih, List.length_append, List.map_cons, List.sum_cons]
      omega
  have h : (text "RESULT_").length = 7 := rfl
  rw [result_text, hfold, List.length_append, h]
  rfl

/-! ## Answered lines -/

/-- The outcome and the ranked ids, each behind a comma, are within the bound of a payload. -/
def Registry.AnswerFits (r : Registry) (scan : List ServiceInstanceId) (kind : Text) : Prop :=
  let res := r.query scan { service_kind := service_kind_from_string kind }
  7 + res.outcome.to_string.length + (res.rankedIds.map fun id => 1 + (to_string id.value).length).sum ≤
    kMaxPayload.toNat

namespace Coordinator

/-- The line is processed to its end, and one reply is sent. -/
def Answered (c : Coordinator) (conn : ℕ) (scan : List ServiceInstanceId) (line : Text) : Prop :=
  ∃ t f, c.process conn scan line = .ok (t, encode_frame f) ∧ f.payload.length ≤ kMaxPayload.toNat ∧ IsReply f.kind

/-- The line has the fields that its command reads, as the command reads them, and the
answer to a query fits. -/
def Servable (c : Coordinator) (conn : ℕ) (scan : List ServiceInstanceId) (line : Text) : Prop :=
  let p := split line ','.toUInt8
  Provides p (needs (c.sessions conn).has_worker (p.headD [])) ∧
    (p.headD [] = text "QUERY" → ∀ kind, p[1]? = some kind → c.registry.AnswerFits scan kind)

/-- A line is processed without a failure and answered by one reply if and only if its
fields are there, its numbers can be read, and the answer to a query fits. -/
theorem line_answered_iff (c : Coordinator) (conn : ℕ) (scan : List ServiceInstanceId) (line : Text) :
    c.Answered conn scan line ↔ c.Servable conn scan line := by
  unfold Answered Servable process
  rcases hsplit : split line ','.toUInt8 with _ | ⟨op, args⟩
  · exact absurd hsplit (split_ne_nil _ _)
  have hprovides := request_succeeds_iff (c.sessions conn).has_worker op args
  simp only [List.headD_cons, ← hprovides]
  rcases hreq : request (c.sessions conn).has_worker (op :: args) with e | q
  · refine iff_of_false ?_ fun h => not_succeeds_error e h.1
    rintro ⟨t, f, h, -⟩
    cases h
  rw [and_iff_right (succeeds_ok q)]
  by_cases hop : op = text "QUERY"
  · subst hop
    have hread : request (c.sessions conn).has_worker (text "QUERY" :: args) = readQuery (text "QUERY" :: args) := rfl
    rcases args with _ | ⟨kind, args⟩
    · cases hread.symm.trans hreq
    obtain rfl : Request.message (.QUERY { service_kind := service_kind_from_string kind }) = q :=
      Except.ok.inj (hread.symm.trans hreq)
    have hfits : c.registry.AnswerFits scan kind ↔
        (c.reply conn scan (.QUERY { service_kind := service_kind_from_string kind })).payload.length ≤ kMaxPayload.toNat := by
      rw [Registry.AnswerFits, reply, result_text_length]
    simp only [List.getElem?_cons_succ, List.getElem?_cons_zero, Option.some.injEq, forall_eq', true_implies, hfits]
    rw [← sent_iff (reply_kind c conn scan _)]
    constructor
    · rintro ⟨t, f, h, hf⟩
      exact ⟨f, congrArg Prod.snd (Except.ok.inj h), hf⟩
    · rintro ⟨f, h, hf⟩
      exact ⟨_, f, by rw [h], hf⟩
  · have hq := request_noQuery (c.sessions conn).has_worker args hop q hreq
    refine iff_of_true ?_ fun h => absurd h hop
    rcases q with t | m
    · refine ⟨c, _, rfl, ?_, .inr (.inr rfl)⟩
      rcases hq with rfl | rfl
      · decide
      · decide
    · refine ⟨_, _, rfl, ?_, reply_kind c conn scan m⟩
      exact (reply_length c conn scan hq).trans (by decide)

/-- The greeting of a worker is read as it was written. -/
theorem hello_processed (c : Coordinator) (conn : ℕ) (scan : List ServiceInstanceId) (worker : WorkerId) :
    c.process conn scan (text "HELLO," ++ to_string worker.value) =
      .ok (c.handle conn scan (.HELLO worker), encode_frame (c.reply conn scan (.HELLO worker))) := by
  have hcomma : ','.toUInt8 ∉ to_string worker.value := by
    intro h
    exact absurd (Numeral.isDigit_write _ _ h) (by decide)
  have hsplit : split (text "HELLO," ++ to_string worker.value) ','.toUInt8 = [text "HELLO", to_string worker.value] := by
    have hname : ','.toUInt8 ∉ text "HELLO" := by decide
    have h := split_append_cons hname (to_string worker.value)
    rwa [split_of_notMem hcomma] at h
  have hread : request (c.sessions conn).has_worker [text "HELLO", to_string worker.value] = .ok (.message (.HELLO worker)) := by
    show (stoull (to_string worker.value) >>= fun v => pure (Request.message (.HELLO ⟨v⟩))) = _
    rw [stoull_to_string]
    rfl
  rw [process, hsplit, hread]

/-- A greeting without a worker, or with one that is no number, ends the process. -/
theorem hello_crashes : ¬ start.Answered 0 [] (text "HELLO") ∧
    start.process 0 [] (text "HELLO") = .error (.no_field 1) ∧
    start.process 0 [] (text "HELLO,worker") = .error .invalid_argument ∧
    start.process 0 [] (text "HELLO,18446744073709551616") = .error .out_of_range := by
  have hcrash : start.process 0 [] (text "HELLO") = .error (.no_field 1) := rfl
  refine ⟨?_, hcrash, rfl, rfl⟩
  rintro ⟨t, f, h, -⟩
  rw [hcrash] at h
  cases h

end Coordinator

end RuntimeRegistry
