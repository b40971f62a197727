import RuntimeRegistry.Queries
/-!
# The order of an answer

Hash tables with the same entries may be walked in different orders. The answer
to a query is the same for all of them, but for the order of the rejections: the
ranking compares any two different instances, and the walk only adds up.
-/
open Lib

namespace RuntimeRegistry

/-- A registry with instances of two services. -/
def Sample.pair : Registry := Registry.fresh.after (Sample.setup ++ [
  .register_service { Sample.service with service_id := ⟨4⟩ } Sample.env,
  .register_instance { Sample.incarnation 6 1 with service_id := ⟨4⟩ } Sample.env])

namespace Registry

variable {r r' : Registry} {q : RegistryQuery} {scan scan' : List ServiceInstanceId}

/-! ## What a query reads -/

/-- The two registries have the same authority and the same records in the maps
that a query reads. -/
structure SameRecords (r r' : Registry) : Prop where
  authority : r.authority = r'.authority
  services : r.services = r'.services
  instances : r.instances = r'.instances
  runtime_instances : r.runtime_instances = r'.runtime_instances
  protocols : r.protocols = r'.protocols
  capabilities : r.capabilities = r'.capabilities
  leases : r.leases = r'.leases

namespace SameRecords

theorem protocolLoop (h : SameRecords r r') (any_proto : Bool) (pids : List ProtocolId) :
    r.protocolLoop q any_proto pids = r'.protocolLoop q any_proto pids := by
  induction pids generalizing any_proto with
  | nil => rfl
  | cons pid pids ih => simp only [Registry.protocolLoop, h.protocols, ih]

theorem satisfactionLoop (h : SameRecords r r') (req : Enum CapabilityKind) (sat : Int) (cids : List CapabilityId) :
    r.satisfactionLoop req sat cids = r'.satisfactionLoop req sat cids := by
  induction cids generalizing sat with
  | nil => rfl
  | cons cid cids ih => simp only [Registry.satisfactionLoop, h.capabilities, ih]

theorem rejectByCapability (h : SameRecords r r') (inst : ServiceInstance) (reqs : List (Enum CapabilityKind)) :
    r.rejectByCapability inst reqs = r'.rejectByCapability inst reqs := by
  induction reqs with
  | nil => rfl
  | cons req reqs ih => simp only [Registry.rejectByCapability, h.satisfactionLoop, ih]

theorem rejectByState (h : SameRecords r r') (inst : ServiceInstance) :
    r.rejectByState q inst = r'.rejectByState q inst := by
  have hlease : r.leaseActive inst.lease = r'.leaseActive inst.lease := by rw [leaseActive, leaseActive, h.leases]
  unfold Registry.rejectByState
  rw [h.authority, hlease]

theorem rejectByRequirement (h : SameRecords r r') (svc : ServiceDescriptor) (inst : ServiceInstance) :
    r.rejectByRequirement q svc inst = r'.rejectByRequirement q svc inst := by
  simp only [Registry.rejectByRequirement, rejectByRuntime, h.rejectByCapability, h.runtime_instances]

theorem score (h : SameRecords r r') (svc : ServiceDescriptor) (inst : ServiceInstance) :
    r.score q svc inst = r'.score q svc inst := by
  simp only [Registry.score, factors, capabilityCount, h.satisfactionLoop]

theorem consider (h : SameRecords r r') : r.consider q = r'.consider q := by
  funext w id
  simp only [Registry.consider, considerInstance, rankOrReject, protocolVerdict, h.instances, h.services,
    h.rejectByState, h.rejectByRequirement, h.score, h.protocolLoop]

theorem query (h : SameRecords r r') (scan : List ServiceInstanceId) (q : RegistryQuery) :
    r.query scan q = r'.query scan q := by
  simp only [Registry.query, h.consider]

end SameRecords

/-! ## The ranking -/

theorem before_iff (a b : CandidateScore) : before a b = true ↔
    b.total < a.total ∨ a.total = b.total ∧ a.instance_id.value < b.instance_id.value := by
  unfold before
  split_ifs with ht
  · simp [ht]
  · push Not at ht
    simp [ht]

/-- A higher total first, then a lower id. -/
theorem before_ranks : Ranks before CandidateScore.instance_id where
  asymm a b h := by
    rw [← Bool.not_eq_true, before_iff]
    rw [before_iff] at h
    rcases h with h | ⟨ht, hid⟩
    · rintro (h' | ⟨ht', _⟩)
      · exact absurd h (not_lt.2 h'.le)
      · exact absurd h (by simp [ht'])
    · rintro (h' | ⟨_, hid'⟩)
      · exact absurd h' (by simp [ht])
      · exact absurd hid (UInt64.not_lt.2 (UInt64.le_of_lt hid'))
  trans a b c hab hbc := by
    rw [← Bool.not_eq_true, before_iff, not_or, not_and, not_lt, UInt64.not_lt] at hab hbc ⊢
    refine ⟨hab.1.trans hbc.1, fun ht => ?_⟩
    have hb : a.total = b.total := le_antisymm hab.1 (ht ▸ hbc.1)
    exact UInt64.le_trans (hbc.2 (hb ▸ ht)) (hab.2 hb)
  total a b hne := by
    rw [before_iff, before_iff]
    rcases lt_trichotomy a.total b.total with ht | ht | ht
    · exact .inr (.inl ht)
    · have hid : a.instance_id.value ≠ b.instance_id.value := fun h => hne (congrArg Id.mk h)
      rcases UInt64.lt_or_lt_of_ne hid with hlt | hlt
      · exact .inl (.inr ⟨ht, hlt⟩)
      · exact .inr (.inr ⟨ht.symm, hlt⟩)
    · exact .inl (.inl ht)

theorem scores_perm (hscan : scan.Perm scan') : (r.scores q scan).Perm (r.scores q scan') := hscan.flatMap_right _

theorem nodup_scores (hkey : wellKeyed.Holds r) (hscan : scan.Perm r.instances.keys) :
    ((r.scores q scan).map (·.instance_id)).Nodup :=
  (query_rankedIds r scan q).nodup_iff.1 (nodup_rankedIds hkey hscan)

/-- The answer is in order: the ranking by total and id, the ranks by position,
and the selection by rank. -/
structure Ordered (q : RegistryQuery) (res : RegistryResult) : Prop where
  ranked : res.ranked.Pairwise fun a b =>
    b.total < a.total ∨ a.total = b.total ∧ a.instance_id.value < b.instance_id.value
  ranks : res.ranked.map (·.rank) = List.range res.ranked.length
  selected : res.selected <+: res.rankedIds
  selected_length : res.selected.length = min q.max_results res.ranked.length

theorem query_ordered (hkey : wellKeyed.Holds r) (hscan : scan.Perm r.instances.keys) : Ordered q (r.query scan q) where
  ranked := by
    rw [query_ranked, List.pairwise_iff_getElem]
    have hstrict := before_ranks.strict (nodup_scores (q := q) hkey hscan)
    rw [List.pairwise_iff_getElem] at hstrict
    intro i j hi hj hij
    rw [List.length_mapIdx] at hi hj
    simpa only [List.getElem_mapIdx, before_iff] using hstrict i j hi hj hij
  ranks := by
    rw [query_ranked]
    apply List.ext_getElem <;> simp
  selected := List.take_prefix _ _
  selected_length := by
    change ((r.query scan q).rankedIds.take q.max_results).length = _
    rw [List.length_take, RegistryResult.rankedIds, List.length_map]

/-! ## Every walk -/

/-- Two answers that differ at most in the order of the rejections. -/
structure SameAnswer (res res' : RegistryResult) : Prop where
  ranked : res.ranked = res'.ranked
  selected : res.selected = res'.selected
  outcome : res.outcome = res'.outcome
  total_considered : res.total_considered = res'.total_considered
  rejected : res.rejected.Perm res'.rejected

/-- A flag of the walk does not show the order of the walk. -/
theorem walk_flag (flag : Walk → Bool) (hflag : ∀ w v, flag (w.add v) = (flag w || flag v)) (hscan : scan.Perm scan') :
    flag (scan.foldl (r.consider q) {}) = flag (scan'.foldl (r.consider q) {}) := by
  rw [walk_eq, walk_eq, sum_flag hflag, sum_flag hflag, List.any_map, List.any_map, hscan.any_eq]

theorem outcome_perm (hscan : scan.Perm scan') :
    outcome (scan.foldl (r.consider q) {}) = outcome (scan'.foldl (r.consider q) {}) := by
  have hranked : (scan.foldl (r.consider q) {}).ranked.length = (scan'.foldl (r.consider q) {}).ranked.length := by
    rw [walk_eq, walk_eq, sum_ranked, sum_ranked, List.flatMap_map, List.flatMap_map]
    exact (scores_perm hscan).length_eq
  have hnil : (scan.foldl (r.consider q) {}).ranked ≠ [] ↔ (scan'.foldl (r.consider q) {}).ranked ≠ [] := by
    rw [← List.length_pos_iff, ← List.length_pos_iff, hranked]
  unfold outcome
  simp only [hnil, hranked, walk_flag Walk.saw_any (fun _ _ => rfl) hscan,
    walk_flag Walk.saw_insufficient (fun _ _ => rfl) hscan,
    walk_flag Walk.saw_stale (fun _ _ => rfl) hscan,
    walk_flag Walk.saw_unready (fun _ _ => rfl) hscan,
    walk_flag Walk.saw_unhealthy (fun _ _ => rfl) hscan,
    walk_flag Walk.saw_unreachable (fun _ _ => rfl) hscan,
    walk_flag Walk.saw_incompatible (fun _ _ => rfl) hscan]

theorem query_perm (hkey : wellKeyed.Holds r) (hscan : scan.Perm r.instances.keys) (hscan' : scan.Perm scan') :
    SameAnswer (r.query scan q) (r.query scan' q) := by
  have hranked : (r.query scan q).ranked = (r.query scan' q).ranked := by
    rw [query_ranked, query_ranked, before_ranks.ranking_eq (scores_perm hscan') (nodup_scores hkey hscan)]
  refine ⟨hranked, ?selected, outcome_perm hscan', ?total, ?rejected⟩
  case selected =>
    exact congrArg (fun ranked : List CandidateScore => (ranked.map (·.instance_id)).take q.max_results) hranked
  case total =>
    rw [query_total, query_total]
    exact (hscan'.map _).sum_eq
  case rejected =>
    rw [query_rejected, query_rejected]
    exact hscan'.flatMap_right _

/-- Registries with the same records answer alike, whatever the order in which
their hash tables are walked, and the answer is in order. -/
theorem query_layout_independent (h : r.Reachable) (hr : SameRecords r r') (hscan : scan.Perm r.instances.keys)
    (hscan' : scan'.Perm r'.instances.keys) :
    SameAnswer (r.query scan q) (r'.query scan' q) ∧ Ordered q (r.query scan q) := by
  have hkey := wellKeyed_reachable h
  rw [← hr.instances] at hscan'
  rw [← hr.query]
  exact ⟨query_perm hkey hscan (hscan.trans hscan'.symm), query_ordered hkey hscan⟩

theorem query_layout_independent_sample :
    SameAnswer (Sample.pair.query [⟨5⟩, ⟨6⟩] {}) (Sample.pair.query [⟨6⟩, ⟨5⟩] {}) ∧
      Ordered {} (Sample.pair.query [⟨5⟩, ⟨6⟩] {}) :=
  query_layout_independent (Reachable.after (.refl _) _) ⟨rfl, rfl, rfl, rfl, rfl, rfl, rfl⟩ (by decide +kernel)
    (by decide +kernel)

end Registry

end RuntimeRegistry
