import RuntimeRegistry.Lib.Interleavings
import RuntimeRegistry.Mirrors
/-!
# Independent clients

Two clients register and update records of their own, each in its own scope. Their
calls commute: whatever the order in which the registry serves them, each call
has the same reply, and the registry ends with the same maps, authority counters and
accounting, and the same histories up to their order. The exception is a
registration whose service has two current instances of the highest generation: the
walk of the hash table picks one of them, and the inserts of the other client can
change the order of that walk.
-/
open Lib

namespace RuntimeRegistry

namespace Registry

variable {A B : Scope} {r s t u : Registry} {env : AuthorityEnvelope} {scan scan' : List ServiceInstanceId}

/-! ## The current instance of a service -/

/-- A current instance of the service that no other one is above. -/
def IsTop (r : Registry) (service : ServiceId) (id : ServiceInstanceId) (inst : ServiceInstance) : Prop :=
  r.IsCurrent service id inst ∧ ∀ k x, r.IsCurrent service k x → x.instance_generation ≤ inst.instance_generation

/-- What a walk of all instances can find for the service. -/
def Finds (r : Registry) (service : ServiceId) : Option (ServiceInstanceId × ServiceInstance) → Prop
  | none => ∀ id inst, ¬ r.IsCurrent service id inst
  | some (id, inst) => r.IsTop service id inst

theorem currentInstance_finds (hscan : scan.Perm r.instances.keys) (service : ServiceId) :
    r.Finds service (r.currentInstance scan service) := by
  rcases hc : r.currentInstance scan service with _ | ⟨id, inst⟩
  · exact currentInstance_none hscan hc
  · exact ⟨currentInstance_some hc, fun _ _ hx => currentInstance_max hscan hc hx⟩

/-- Two instances of the service share the highest generation, and the registration
supersedes the one that the walk meets first, or is a repeat of one of them only. -/
def Tied (r : Registry) (inst : ServiceInstance) : Prop :=
  ∃ id c id' c', r.IsTop inst.service_id id c ∧ r.IsTop inst.service_id id' c' ∧ id ≠ id' ∧
    (c.instance_generation < inst.instance_generation ∨ (inst == c) = true ∧ (inst == c') = false)

/-- Where no tie decides, any two finds lead to the same outcome. -/
theorem registerFound_untied {inst : ServiceInstance} {found found' : Option (ServiceInstanceId × ServiceInstance)}
    (h : ¬ r.Tied inst) (hfound : r.Finds inst.service_id found) (hfound' : r.Finds inst.service_id found') :
    r.registerFound found inst env = r.registerFound found' inst env := by
  rcases found with _ | ⟨id, c⟩ <;> rcases found' with _ | ⟨id', c'⟩
  · rfl
  · exact absurd hfound'.1 (hfound id' c')
  · exact absurd hfound.1 (hfound' id c)
  · by_cases hid : id = id'
    · subst hid
      rw [Option.some.inj (hfound.1.1.symm.trans hfound'.1.1)]
    have hgen : c.instance_generation = c'.instance_generation :=
      le_antisymm (hfound'.2 id c hfound.1) (hfound.2 id' c' hfound'.1)
    have hnew : inst.instance_generation ≤ c.instance_generation :=
      not_lt.1 fun hlt => h ⟨id, c, id', c', hfound, hfound', hid, .inl hlt⟩
    -- a repeat of the one is a repeat of the other
    have hrepeat : (inst == c) = (inst == c') := by
      rcases hc : inst == c with _ | _ <;> rcases hc' : inst == c' with _ | _
      · rfl
      · exact absurd ⟨id', c', id, c, hfound', hfound, Ne.symm hid, .inr ⟨hc', hc⟩⟩ h
      · exact absurd ⟨id, c, id', c', hfound, hfound', hid, .inr ⟨hc, hc'⟩⟩ h
      · rfl
    unfold registerFound
    dsimp only
    rw [← hgen, ← hrepeat, if_pos hnew, if_pos hnew]

/-! ## The calls of a client -/

end Registry

/-- The ids that the call writes or names in the state are in the scope. The ids of an
endpoint, a capability and an instance are the caller's own, not left to the
registry. -/
def Op.Within (A : Scope) (r : Registry) : Op → Prop
  | .register_service svc _ => svc.service_id ∈ A.services
  | .register_endpoint ep _ => ep.endpoint_id.value ≠ 0 ∧ ep.endpoint_id ∈ A.endpoints ∧
    (ep.service_instance.value ≠ 0 → ep.service_instance ∈ A.instances)
  | .register_capability cap _ => cap.capability_id.value ≠ 0 ∧ cap.capability_id ∈ A.capabilities
  | .register_instance inst _ => inst.instance_id.value ≠ 0 ∧ inst.instance_id ∈ A.instances ∧
    inst.service_id ∈ A.services ∧ (∀ eid ∈ inst.endpoints, eid ∈ A.endpoints) ∧
    ∀ cid ∈ inst.capabilities, cid ∈ A.capabilities
  | .update_health id _ _ | .update_readiness id _ _ | .update_freshness id _ _ => id ∈ A.instances
  | .update_reachability id _ _ => id ∈ A.endpoints ∧ r.OwnsEndpoint A id
  | _ => False

/-- The call is a registration that passes the envelope check and that a tie decides. -/
def Op.Tied (r : Registry) : Op → Prop
  | .register_instance inst env => r.Accepts env ∧ inst.service_id ∈ r.services ∧ r.Tied inst
  | _ => False

namespace Registry

variable {A B : Scope} {r s t u : Registry} {env : AuthorityEnvelope} {scan scan' : List ServiceInstanceId}

/-- What the two agree on, as far as the other client is concerned, and what holds
of both. -/
structure Between (A B : Scope) (r s : Registry) : Prop where
  agree : AgreeOutside B r s
  left : r.Enclosed A ∧ r.Enclosed B
  right : s.Enclosed A ∧ s.Enclosed B

theorem Between.symm (h : Between A B r s) : Between A B s r := ⟨h.agree.symm, h.right, h.left⟩

theorem Between.accepts (h : Between A B r s) : r.Accepts env ↔ s.Accepts env := by
  rw [← validate_envelope_accept, ← validate_envelope_accept, h.agree.validate_envelope]

theorem Between.isCurrent (h : Between A B r s) (hAB : A.Disjoint B) {service : ServiceId} (hservice : service ∈ A.services)
    {id : ServiceInstanceId} {inst : ServiceInstance} (hc : r.IsCurrent service id inst) :
    id ∈ A.instances ∧ s.IsCurrent service id inst := by
  have hmine : id ∈ A.instances := by
    by_contra hid
    exact (h.left.1.instances id inst hc.1 hid).service_id (hc.2.1 ▸ hservice)
  exact ⟨hmine, (h.agree.instances id (hAB.instances id hmine)).symm.trans hc.1, hc.2⟩

theorem Between.isTop (h : Between A B r s) (hAB : A.Disjoint B) {service : ServiceId} (hservice : service ∈ A.services)
    {id : ServiceInstanceId} {inst : ServiceInstance} (hc : r.IsTop service id inst) : s.IsTop service id inst :=
  ⟨(h.isCurrent hAB hservice hc.1).2, fun k x hx => hc.2 k x (h.symm.isCurrent hAB hservice hx).2⟩

theorem Between.finds (h : Between A B r s) (hAB : A.Disjoint B) {service : ServiceId} (hservice : service ∈ A.services)
    {found : Option (ServiceInstanceId × ServiceInstance)} (hfound : r.Finds service found) : s.Finds service found := by
  rcases found with _ | ⟨id, inst⟩
  · exact fun id inst hc => hfound id inst (h.symm.isCurrent hAB hservice hc).2
  · exact h.isTop hAB hservice hfound

theorem Between.within (h : Between A B r s) (hAB : A.Disjoint B) {op : Op} (hop : op.Within A r) : op.Within A s := by
  cases op
  case update_reachability id rc env =>
    refine ⟨hop.1, fun ep hep => hop.2 ep ?_⟩
    rw [h.agree.endpoints id (hAB.endpoints id hop.1), hep]
  all_goals exact hop

theorem Between.tied (h : Between A B r s) (hAB : A.Disjoint B) {op : Op} (hop : op.Within A r) (ht : op.Tied r) :
    op.Tied s := by
  cases op
  case register_instance inst env =>
    obtain ⟨ha, hs, id, c, id', c', hc, hc', hne, hwhy⟩ := ht
    have hservice := hop.2.2.1
    refine ⟨h.accepts.1 ha, ?_, id, c, id', c', h.isTop hAB hservice hc, h.isTop hAB hservice hc', hne, hwhy⟩
    rwa [Std.ExtTreeMap.mem_iff_isSome_getElem?, ← h.agree.services _ (hAB.services _ hservice),
      ← Std.ExtTreeMap.mem_iff_isSome_getElem?]
  all_goals exact ht

theorem register_instance_mirrored {inst : ServiceInstance} (h : Between A B r s) (hAB : A.Disjoint B)
    (hop : Op.Within A r (.register_instance inst env)) (huntied : ¬ Op.Tied r (.register_instance inst env))
    (hscan : scan.Perm r.instances.keys) (hscan' : scan'.Perm s.instances.keys) :
    Mirrored A B r s (r.register_instance scan inst env) (s.register_instance scan' inst env) := by
  obtain ⟨hnamed, hid, hservice, heids, hcids⟩ := hop
  have hinst : B.Excludes inst := ⟨hAB.services _ hservice, fun eid he => hAB.endpoints _ (heids eid he),
    fun cid hc => hAB.capabilities _ (hcids cid hc)⟩
  have hfound := currentInstance_finds hscan inst.service_id
  have hfound' := h.symm.finds hAB hservice (currentInstance_finds hscan' inst.service_id)
  have hsame : r.registerFound (r.currentInstance scan inst.service_id) inst env =
      r.registerFound (s.currentInstance scan' inst.service_id) inst env := by
    by_cases ha : r.Accepts env ∧ inst.service_id ∈ r.services
    · exact registerFound_untied (fun ht => huntied ⟨ha.1, ha.2, ht⟩) hfound hfound'
    · -- the call is refused before the walk
      unfold registerFound
      by_cases henv : r.Accepts env
      · rw [if_pos fun hs => ha ⟨henv, hs⟩, if_pos fun hs => ha ⟨henv, hs⟩]
      · have hv : (r.validate_envelope env).accept = false := by simpa using mt validate_envelope_accept.1 henv
        simp only [authorized, hv, Bool.not_false, if_true]
  rw [register_instance_found hnamed, register_instance_found hnamed, hsame]
  refine registerFound_mirrored h.agree h.left.2 hAB hid hservice heids hinst fun c hc => ?_
  rw [hc] at hfound'
  have hmine := (h.isCurrent hAB hservice hfound'.1).1
  exact ⟨hmine, h.left.2.instances _ _ hfound'.1.1 (hAB.instances _ hmine)⟩

/-- A call of a client in two states that agree outside the scope of the other one. -/
theorem exec_mirrored {op : Op} (h : Between A B r s) (hAB : A.Disjoint B) (hop : op.Within A r)
    (huntied : ¬ op.Tied r) (hscan : scan.Perm r.instances.keys) (hscan' : scan'.Perm s.instances.keys) :
    Mirrored A B r s (r.exec scan op) (s.exec scan' op) := by
  cases op
  case register_service svc env => exact (register_service_mirrored h.agree hAB hop).map _
  case register_endpoint ep env =>
    exact (register_endpoint_mirrored h.agree hAB hop.1 hop.2.1 fun h0 => hAB.instances _ (hop.2.2 h0)).map _
  case register_capability cap env => exact (register_capability_mirrored h.agree hAB hop.1 hop.2).map _
  case register_instance inst env => exact (register_instance_mirrored h hAB hop huntied hscan hscan').map _
  case update_health id hl env =>
    refine (updateInstance_mirrored h.agree h.left.2 hAB hop ?_).map _
    exact fun _ hx => ⟨hx.1, hx.2, hx.3⟩
  case update_readiness id rd env =>
    refine (updateInstance_mirrored h.agree h.left.2 hAB hop ?_).map _
    exact fun _ hx => ⟨hx.1, hx.2, hx.3⟩
  case update_freshness id f env =>
    refine (updateInstance_mirrored h.agree h.left.2 hAB hop ?_).map _
    exact fun _ hx => ⟨hx.1, hx.2, hx.3⟩
  case update_reachability id rc env => exact (update_reachability_mirrored h.agree h.left.2 hAB hop.1 hop.2).map _
  all_goals exact hop.elim

/-! ## Runs of two clients -/

/-- A call with its reply, whatever the walk. -/
abbrev Call := Op × Except RegistryError Reply

/-- The registry serves a call of the client of scope `A`. -/
def ClientStep (A : Scope) (r : Registry) (c : Call) (t : Registry) : Prop :=
  (∃ scan, Step r ⟨c.1, scan, c.2⟩ t) ∧ c.1.Within A r

/-- The call of a client that no tie decides. -/
abbrev UntiedStep (A : Scope) : Registry → Call → Registry → Prop :=
  Guarded (ClientStep A) fun r c => ¬ c.1.Tied r

/-- The call can be made in the other state too, with the same reply and the same
writes. -/
theorem UntiedStep.mirrored {c : Call} (h : Between A B r s) (hAB : A.Disjoint B) (hst : UntiedStep A r c t) :
    ∃ ws, (∀ w ∈ ws, w.Safe A B) ∧ t = r.written ws ∧ UntiedStep A s c (s.written ws) := by
  obtain ⟨⟨⟨scan, hscan, he⟩, hop⟩, huntied⟩ := hst
  obtain ⟨hreply, ws, hws, hr, hs⟩ := exec_mirrored h hAB hop huntied hscan (.refl s.instances.keys)
  have hsop := h.within hAB hop
  rw [he] at hreply hr
  exact ⟨ws, hws, hr, ⟨⟨s.instances.keys, .refl _, Prod.ext hreply.symm hs⟩, hsop⟩,
    fun ht => huntied (h.symm.tied hAB hsop ht)⟩

/-- The reply and the writes are told by the call. -/
theorem UntiedStep.determined {c c' : Call} (h : Between A B r s) (hAB : A.Disjoint B) (hst : UntiedStep A r c t)
    (hst' : UntiedStep A s c' u) (hsame : c.1 = c'.1) : c = c' ∧ ∃ ws, t = r.written ws ∧ u = s.written ws := by
  obtain ⟨op, reply⟩ := c
  obtain ⟨op', reply'⟩ := c'
  obtain rfl : op = op' := hsame
  obtain ⟨⟨⟨scan, hscan, he⟩, hop⟩, huntied⟩ := hst
  obtain ⟨⟨⟨scan', hscan', he'⟩, _⟩, _⟩ := hst'
  obtain ⟨hreply, ws, _, hr, hs⟩ := exec_mirrored h hAB hop huntied hscan hscan'
  rw [he, he'] at hreply
  rw [he] at hr
  rw [he'] at hs
  exact ⟨Prod.ext rfl hreply, ws, hr, hs⟩

theorem Between.refl (hA : r.Enclosed A) (hB : r.Enclosed B) : Between A B r r := ⟨.refl B r, ⟨hA, hB⟩, hA, hB⟩

theorem Between.swap (hA : r.Enclosed A) (hB : r.Enclosed B) {ws : List Write} (hws : ∀ w ∈ ws, w.Safe B A) :
    Between A B (r.written ws) r :=
  ⟨(AgreeOutside.of_written r hws).symm,
    ⟨hA.written fun w hw => (hws w hw).spares, hB.written fun w hw => (hws w hw).spares_own⟩, hA, hB⟩

theorem Alike.equivalence : Equivalence Alike := ⟨.refl, .symm, .trans⟩

/-- Both scopes stay enclosed, and the steps of a client can be taken from every state
alike. -/
theorem untiedStep_replays (hAB : A.Disjoint B) :
    Replays (fun r => r.Enclosed A ∧ r.Enclosed B) Alike Prod.fst (UntiedStep A) where
  keeps r c t hr hst := by
    obtain ⟨ws, hws, rfl, _⟩ := hst.mirrored (.refl hr.1 hr.2) hAB
    exact ⟨hr.1.written fun w hw => (hws w hw).spares_own, hr.2.written fun w hw => (hws w hw).spares⟩
  replay r s c t hr hs hsim hst := by
    obtain ⟨ws, _, rfl, hst'⟩ := hst.mirrored ⟨hsim.agree B, hr, hs⟩ hAB
    exact ⟨s.written ws, hst', hsim.written ws⟩
  determined r s c c' t u hr hs hsim hst hst' hsame := by
    obtain ⟨rfl, ws, rfl, rfl⟩ := hst.determined ⟨hsim.agree B, hr, hs⟩ hAB hst' hsame
    exact ⟨rfl, hsim.written ws⟩

theorem clients_apart (hAB : A.Disjoint B) :
    Apart (fun r => r.Enclosed A ∧ r.Enclosed B) Alike Prod.fst (UntiedStep A) (UntiedStep B) where
  equivalence := Alike.equivalence
  left := untiedStep_replays hAB
  right := by simpa only [and_comm] using untiedStep_replays hAB.symm
  swap r b t a u hr hb ha := by
    obtain ⟨vs, hvs, rfl, _⟩ := hb.mirrored (.refl hr.2 hr.1) hAB.symm
    -- the call of the one client before the call of the other
    obtain ⟨ws, hws, rfl, ha'⟩ := ha.mirrored (.swap hr.1 hr.2 hvs) hAB
    have hbetween : Between B A r (r.written ws) := (Between.swap hr.2 hr.1 hws).symm
    obtain ⟨vs', hvs', hsame, hb'⟩ := hb.mirrored hbetween hAB.symm
    refine ⟨r.written ws, (r.written ws).written vs', ha', hb', ?_⟩
    rw [hsame]
    exact r.written_comm fun v hv w hw hmeets => (hvs' v hv).not_meets hAB.symm (hws w hw) hmeets

/-- Two interleavings of the calls of two independent clients give every call the same
reply, and end with the same maps, authority counters and accounting, and the same
histories up to their order, where no tie decides a registration. -/
theorem clients_commute {A B : Scope} {r t u : Registry} {as as' bs bs' : List Call} (hAB : A.Disjoint B)
    (hA : r.Enclosed A) (hB : r.Enclosed B) (h : Interleaved (UntiedStep A) (UntiedStep B) r as bs t)
    (h' : Interleaved (UntiedStep A) (UntiedStep B) r as' bs' u) (has : as.map Prod.fst = as'.map Prod.fst)
    (hbs : bs.map Prod.fst = bs'.map Prod.fst) : as = as' ∧ bs = bs' ∧ t.Alike u :=
  (clients_apart hAB).unique ⟨hA, hB⟩ h h' has hbs

/-- A call of a client with a walk is a step of it. -/
theorem clientStep_exec {op : Op} (hscan : scan.Perm r.instances.keys) (hop : op.Within A r) :
    ClientStep A r (op, (r.exec scan op).1) (r.exec scan op).2 := ⟨⟨scan, hscan, rfl⟩, hop⟩

/-- One call of each client in the two orders, each call under a condition. The walks of
the one client's call are given. -/
theorem interleaved_pair {P : Registry → Op → Prop} {op op' : Op} {walk grown : List ServiceInstanceId}
    (hop : ∀ r, op.Within A r) (hop' : ∀ r, op'.Within B r) (hwalk : walk.Perm r.instances.keys)
    (hgrown : grown.Perm (r.exec r.instances.keys op').2.instances.keys) (h₁ : P r op) (h₂ : P (r.exec walk op).2 op')
    (h₃ : P r op') (h₄ : P (r.exec r.instances.keys op').2 op) : ∃ as as' bs bs' : List Call,
      Interleaved (Guarded (ClientStep A) fun r c => P r c.1) (Guarded (ClientStep B) fun r c => P r c.1) r as bs
        ((r.exec walk op).2.exec (r.exec walk op).2.instances.keys op').2 ∧
      Interleaved (Guarded (ClientStep A) fun r c => P r c.1) (Guarded (ClientStep B) fun r c => P r c.1) r as' bs'
        ((r.exec r.instances.keys op').2.exec grown op).2 ∧
      as.map Prod.fst = as'.map Prod.fst ∧ bs.map Prod.fst = bs'.map Prod.fst :=
  ⟨_, _, _, _, .left ⟨clientStep_exec hwalk (hop r), h₁⟩ (.right ⟨clientStep_exec (.refl _) (hop' _), h₂⟩ (.nil _)),
    .right ⟨clientStep_exec (.refl _) (hop' r), h₃⟩ (.left ⟨clientStep_exec hgrown (hop _), h₄⟩ (.nil _)), rfl, rfl⟩

/-- Instances of a service under one id only leave no tie. -/
theorem untied_of_unique {inst : ServiceInstance} (k : ServiceInstanceId)
    (h : ∀ p ∈ r.instances.toList, p.2.service_id = inst.service_id → p.1 = k) :
    ¬ Op.Tied r (.register_instance inst env) := by
  rintro ⟨_, _, id, c, id', c', hc, hc', hne, _⟩
  have hkey : ∀ id c, r.IsCurrent inst.service_id id c → id = k := fun id c hcur =>
    h (id, c) (Std.ExtTreeMap.mem_toList_iff_getElem?_eq_some.2 hcur.1) hcur.2.1
  exact hne ((hkey id c hc.1).trans (hkey id' c' hc'.1).symm)

end Registry

/-! ## Two clients -/

namespace Sample

/-- The scopes of a client of service 3 and of one of service 4. -/
def left : Scope := ⟨{⟨3⟩}, {id | id.value ∈ [5, 6, 14]}, ∅, ∅⟩

def right : Scope := ⟨{⟨4⟩}, {id | id.value ∉ [5, 6, 14]}, ∅, ∅⟩

theorem left_disjoint : left.Disjoint right where
  services _ h h' := absurd (h.symm.trans h') (by decide)
  instances _ h h' := h' h
  endpoints _ h := h.elim
  capabilities _ h := h.elim

/-- The two scopes are enclosed where each stored instance names the service of its own
scope. -/
theorem enclosed_sample {r : Registry}
    (hi : ∀ p ∈ r.instances.toList, p.2.service_id = if p.1.value ∈ [5, 6, 14] then ⟨3⟩ else ⟨4⟩)
    (he : r.endpoints.toList = []) : r.Enclosed left ∧ r.Enclosed right := by
  have hservice : ∀ (id : ServiceInstanceId) (inst : ServiceInstance), r.instances[id]? = some inst →
      inst.service_id = if id.value ∈ [5, 6, 14] then ⟨3⟩ else ⟨4⟩ := Table.All.of_toList hi
  have hnone : ∀ (id : EndpointId) (ep : EndpointDescriptor), r.endpoints[id]? ≠ some ep := fun id ep h => by
    have hmem := Std.ExtTreeMap.mem_toList_iff_getElem?_eq_some.2 h
    simp [he] at hmem
  constructor
  · refine ⟨fun id inst h hid => ?_, fun id ep h => absurd h (hnone id ep)⟩
    have hid : id.value ∉ [5, 6, 14] := hid
    exact ⟨by simp [left, hservice id inst h, hid], by simp [left], by simp [left]⟩
  · refine ⟨fun id inst h hid => ?_, fun id ep h => absurd h (hnone id ep)⟩
    have hid : id.value ∈ [5, 6, 14] := not_not.1 hid
    exact ⟨by simp [right, hservice id inst h, hid], by simp [right], by simp [right]⟩

/-- The envelope and the instances of the second client. -/
def env₂ : AuthorityEnvelope := { epoch := ⟨1⟩, boot := ⟨102⟩ }

def other (id generation : UInt64) : ServiceInstance :=
  { incarnation id generation with service_id := ⟨4⟩, boot := ⟨102⟩ }

def paired : Registry := registry.after [.adopt_worker ⟨2⟩, .register_service { service with service_id := ⟨4⟩ } env₂]

/-- Service 3 has two current instances of generation 1, since an update revives the
one that is deregistered, and service 4 has the other eleven instances. -/
def tied : Registry := paired.after [
  .deregister ⟨5⟩ env, .register_instance (incarnation 6 1) env, .update_health ⟨5⟩ Health.HEALTHY env,
  .register_instance (other 1 1) env₂, .register_instance (other 2 2) env₂, .register_instance (other 3 3) env₂,
  .register_instance (other 4 4) env₂, .register_instance (other 7 5) env₂, .register_instance (other 8 6) env₂,
  .register_instance (other 9 7) env₂, .register_instance (other 10 8) env₂, .register_instance (other 11 9) env₂,
  .register_instance (other 12 10) env₂, .register_instance (other 13 11) env₂]

theorem tied_reachable : tied.Reachable := (registry_reachable.reachable.after _).after _

/-- A registration by each of the two. -/
def mine : Op := .register_instance (incarnation 14 2) env

def theirs : Op := .register_instance (other 15 12) env₂

theorem left_within (r : Registry) : mine.Within left r := by
  simp [mine, Op.Within, left, incarnation]

theorem right_within (r : Registry) : theirs.Within right r := by
  simp [theirs, Op.Within, right, other, incarnation]

/-- The walks before and after an insert of instance 15 that grows the table. -/
def walk : List ServiceInstanceId := [13, 12, 11, 10, 9, 8, 7, 4, 3, 2, 1, 6, 5].map Id.mk

def grown : List ServiceInstanceId := [15, 5, 6, 1, 2, 3, 4, 7, 8, 9, 10, 11, 12, 13].map Id.mk

end Sample

namespace Registry

theorem clients_commute_sample : (Sample.paired.after [Sample.mine, Sample.theirs]).Alike
    (Sample.paired.after [Sample.theirs, Sample.mine]) := by
  have henclosed : Sample.paired.Enclosed Sample.left ∧ Sample.paired.Enclosed Sample.right :=
    Sample.enclosed_sample (by decide +kernel) (by decide +kernel)
  obtain ⟨as, as', bs, bs', hfirst, hsecond, has, hbs⟩ := interleaved_pair (r := Sample.paired) (P := fun r op => ¬ op.Tied r)
    Sample.left_within Sample.right_within (.refl _) (.refl _) (untied_of_unique ⟨5⟩ (by decide +kernel))
    (untied_of_unique ⟨15⟩ (by decide +kernel)) (untied_of_unique ⟨15⟩ (by decide +kernel))
    (untied_of_unique ⟨5⟩ (by decide +kernel))
  exact (clients_commute Sample.left_disjoint henclosed.1 henclosed.2 hfirst hsecond has hbs).2.2

/-- Without the condition the order shows: the insert of the other client turns the walk
around, and another one of the two current instances is superseded. -/
theorem clients_race : ¬ ∀ (A B : Scope) (r t u : Registry) (as as' bs bs' : List Call), r.Reachable → A.Disjoint B →
    r.Enclosed A → r.Enclosed B → Interleaved (ClientStep A) (ClientStep B) r as bs t →
    Interleaved (ClientStep A) (ClientStep B) r as' bs' u → as.map Prod.fst = as'.map Prod.fst →
    bs.map Prod.fst = bs'.map Prod.fst → as = as' ∧ bs = bs' ∧ t.Alike u := by
  intro hclaim
  have henclosed : Sample.tied.Enclosed Sample.left ∧ Sample.tied.Enclosed Sample.right :=
    Sample.enclosed_sample (by decide +kernel) (by decide +kernel)
  have hwalk : Sample.walk.Perm Sample.tied.instances.keys := by decide +kernel
  have hgrown : Sample.grown.Perm (Sample.tied.exec Sample.tied.instances.keys
    Sample.theirs).2.instances.keys := by decide +kernel
  obtain ⟨as, as', bs, bs', hfirst, hsecond, has, hbs⟩ := interleaved_pair (P := fun _ _ => True)
    Sample.left_within Sample.right_within hwalk
    hgrown trivial trivial trivial trivial
  obtain ⟨_, _, hsim⟩ := hclaim _ _ _ _ _ as as' bs bs' Sample.tied_reachable Sample.left_disjoint henclosed.1 henclosed.2
    (hfirst.mono (fun _ _ _ h => h.1) fun _ _ _ h => h.1) (hsecond.mono (fun _ _ _ h => h.1) fun _ _ _ h => h.1) has hbs
  have hsame := congrArg (fun r => (r.instances[(⟨5⟩ : ServiceInstanceId)]?).map (·.lifecycle)) hsim.unordered
  exact absurd hsame (by decide +kernel)

end Registry

end RuntimeRegistry
