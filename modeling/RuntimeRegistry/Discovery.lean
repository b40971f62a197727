import RuntimeRegistry.Lib.Ranking
import RuntimeRegistry.Records
/-!
# What a query leaves of each instance

The walk adds to its lists and flags what each instance leaves by itself, its
trace, so the result is told instance by instance, whatever the order of the
walk. An instance that is not considered leaves no entry; one that is leaves a
rejection or a score, and one rejected for its protocol leaves a second entry.
-/
open Lib

namespace RuntimeRegistry

namespace RegistryResult

def rankedIds (res : RegistryResult) : List ServiceInstanceId := res.ranked.map (·.instance_id)

def rejectedIds (res : RegistryResult) : List ServiceInstanceId := res.rejected.map (·.instance_id)

end RegistryResult

namespace Registry

variable {r : Registry} {q : RegistryQuery}

/-! ## Traces -/

/-- What two parts of a walk leave together. -/
def Walk.add (w v : Walk) : Walk where
  total_considered := w.total_considered + v.total_considered
  rejected := w.rejected ++ v.rejected
  ranked := w.ranked ++ v.ranked
  saw_stale := w.saw_stale || v.saw_stale
  saw_unready := w.saw_unready || v.saw_unready
  saw_unhealthy := w.saw_unhealthy || v.saw_unhealthy
  saw_unreachable := w.saw_unreachable || v.saw_unreachable
  saw_incompatible := w.saw_incompatible || v.saw_incompatible
  saw_insufficient := w.saw_insufficient || v.saw_insufficient
  saw_any := w.saw_any || v.saw_any

theorem Walk.add_empty (w : Walk) : w.add {} = w := by
  simp [Walk.add]

theorem Walk.add_assoc (w v u : Walk) : (w.add v).add u = w.add (v.add u) := by
  simp [Walk.add, Nat.add_assoc, Bool.or_assoc]

theorem Walk.reject_eq (w : Walk) (id : ServiceInstanceId) (rejection : Rejection) :
    w.reject id rejection = w.add (({} : Walk).reject id rejection) := by
  simp [Walk.add, Walk.reject]

theorem rankOrReject_eq (svc : ServiceDescriptor) (inst : ServiceInstance) (w v : Walk) :
    r.rankOrReject q svc inst (w.add v) = w.add (r.rankOrReject q svc inst v) := by
  unfold rankOrReject
  split
  · rw [Walk.reject_eq, Walk.reject_eq v, Walk.add_assoc]
  · simp [Walk.add]

theorem considerInstance_eq (svc : ServiceDescriptor) (inst : ServiceInstance) (w v : Walk) :
    r.considerInstance q svc inst (w.add v) = w.add (r.considerInstance q svc inst v) := by
  unfold considerInstance
  split
  · rw [Walk.reject_eq, Walk.reject_eq v, Walk.add_assoc]
  · split
    · rw [Walk.reject_eq, Walk.reject_eq v, Walk.add_assoc]
    · rw [Walk.reject_eq, Walk.reject_eq v, Walk.add_assoc, rankOrReject_eq]
    · exact rankOrReject_eq svc inst w v

/-- What the instance leaves in a walk. -/
def trace (r : Registry) (q : RegistryQuery) (id : ServiceInstanceId) : Walk := r.consider q {} id

theorem consider_eq (q : RegistryQuery) (w : Walk) (id : ServiceInstanceId) :
    r.consider q w id = w.add (r.trace q id) := by
  unfold trace consider
  split
  · exact w.add_empty.symm
  split
  · exact w.add_empty.symm
  split_ifs
  · exact w.add_empty.symm
  · simp [Walk.add]
  · rw [← considerInstance_eq]
    simp [Walk.add]

/-- The walk is the sum of the traces. -/
theorem walk_eq (q : RegistryQuery) (scan : List ServiceInstanceId) (w : Walk) :
    scan.foldl (r.consider q) w = (scan.map (r.trace q)).foldl Walk.add w := by
  induction scan generalizing w with
  | nil => rfl
  | cons id scan ih => rw [List.foldl_cons, ih, consider_eq, List.map_cons, List.foldl_cons]

theorem sum_ranked (ts : List Walk) (w : Walk) : (ts.foldl Walk.add w).ranked = w.ranked ++ ts.flatMap (·.ranked) := by
  induction ts generalizing w with
  | nil => simp
  | cons t ts ih => rw [List.foldl_cons, ih, List.flatMap_cons, ← List.append_assoc]; rfl

theorem sum_rejected (ts : List Walk) (w : Walk) :
    (ts.foldl Walk.add w).rejected = w.rejected ++ ts.flatMap (·.rejected) := by
  induction ts generalizing w with
  | nil => simp
  | cons t ts ih => rw [List.foldl_cons, ih, List.flatMap_cons, ← List.append_assoc]; rfl

theorem sum_considered (ts : List Walk) (w : Walk) :
    (ts.foldl Walk.add w).total_considered = w.total_considered + (ts.map (·.total_considered)).sum := by
  induction ts generalizing w with
  | nil => simp
  | cons t ts ih => rw [List.foldl_cons, ih, List.map_cons, List.sum_cons, ← Nat.add_assoc]; rfl

/-- A flag of the walk is set if a trace sets it. -/
theorem sum_flag {flag : Walk → Bool} (hflag : ∀ w v, flag (w.add v) = (flag w || flag v)) (ts : List Walk) (w : Walk) :
    flag (ts.foldl Walk.add w) = (flag w || ts.any flag) := by
  induction ts generalizing w with
  | nil => simp
  | cons t ts ih => rw [List.foldl_cons, ih, hflag, List.any_cons, Bool.or_assoc]

/-! ## The trace of an instance -/

/-- The instance is stored, its service is registered, and both match the query. -/
structure Considered (r : Registry) (q : RegistryQuery) (id : ServiceInstanceId) (inst : ServiceInstance)
    (svc : ServiceDescriptor) : Prop where
  stored : r.instances[id]? = some inst
  registered : r.services[inst.service_id]? = some svc
  exact_service_id : q.exact_service_id.value ≠ 0 → inst.service_id = q.exact_service_id
  service_kind : q.service_kind ≠ ServiceKind.UNKNOWN → svc.kind = q.service_kind

/-- The instance passes every filter, where a protocol that is not compatible
does not stop it. -/
structure Passes (r : Registry) (q : RegistryQuery) (inst : ServiceInstance) (svc : ServiceDescriptor) : Prop where
  state : r.rejectByState q inst = none
  protocol : r.protocolVerdict q inst ≠ .noEvidence
  requirement : r.rejectByRequirement q svc inst = none

theorem trace_considered {id : ServiceInstanceId} {inst : ServiceInstance} {svc : ServiceDescriptor}
    (h : r.Considered q id inst svc) : r.trace q id = r.considerInstance q svc inst { total_considered := 1 } := by
  have h₁ : ¬ (q.exact_service_id.value ≠ 0 ∧ inst.service_id ≠ q.exact_service_id) := fun ⟨h0, hne⟩ =>
    hne (h.exact_service_id h0)
  have h₂ : ¬ (q.service_kind ≠ ServiceKind.UNKNOWN ∧ svc.kind ≠ q.service_kind) := fun ⟨h0, hne⟩ =>
    hne (h.service_kind h0)
  simp only [trace, consider, h.stored, h.registered, if_neg h₁, if_neg h₂]

/-- What is not considered leaves no entry. -/
theorem trace_not_considered {id : ServiceInstanceId} (h : ∀ inst svc, ¬ r.Considered q id inst svc) :
    (r.trace q id).total_considered = 0 ∧ (r.trace q id).rejected = [] ∧ (r.trace q id).ranked = [] := by
  unfold trace consider
  split
  · exact ⟨rfl, rfl, rfl⟩
  rename_i inst hi
  split
  · exact ⟨rfl, rfl, rfl⟩
  rename_i svc hs
  split_ifs with h₁ h₂
  · exact ⟨rfl, rfl, rfl⟩
  · exact ⟨rfl, rfl, rfl⟩
  · exact absurd ⟨hi, hs, fun h0 => not_not.1 fun hne => h₁ ⟨h0, hne⟩, fun h0 => not_not.1 fun hne => h₂ ⟨h0, hne⟩⟩
      (h inst svc)

theorem trace_total {id : ServiceInstanceId} {inst : ServiceInstance} {svc : ServiceDescriptor}
    (h : r.Considered q id inst svc) : (r.trace q id).total_considered = 1 := by
  rw [trace_considered h]
  unfold considerInstance rankOrReject
  repeat' split
  all_goals rfl

/-- A considered instance is ranked if it passes, and not otherwise. -/
theorem trace_ranked {id : ServiceInstanceId} {inst : ServiceInstance} {svc : ServiceDescriptor}
    (h : r.Considered q id inst svc) :
    r.Passes q inst svc ∧ (r.trace q id).ranked = [r.score q svc inst] ∨
      ¬ r.Passes q inst svc ∧ (r.trace q id).ranked = [] := by
  rw [trace_considered h]
  rcases hstate : r.rejectByState q inst with _ | rejection
  · rcases hreq : r.rejectByRequirement q svc inst with _ | rejection
    · rcases hproto : r.protocolVerdict q inst
      · exact .inl ⟨⟨hstate, by simp [hproto], hreq⟩, by simp [considerInstance, hstate, hproto, rankOrReject, hreq]⟩
      · exact .inl ⟨⟨hstate, by simp [hproto], hreq⟩,
          by simp [considerInstance, hstate, hproto, rankOrReject, hreq, Walk.reject]⟩
      · exact .inr ⟨fun hp => hp.protocol hproto, by simp [considerInstance, hstate, hproto, Walk.reject]⟩
    · refine .inr ⟨fun hp => by simp [hp.requirement] at hreq, ?_⟩
      unfold considerInstance rankOrReject
      simp only [hstate, hreq]
      split <;> rfl
  · refine .inr ⟨fun hp => by simp [hp.state] at hstate, ?_⟩
    simp [considerInstance, hstate, Walk.reject]

/-- The number of rejections a considered instance leaves: one, or none if it is
ranked, and one more if it is rejected for its protocol and goes on. -/
theorem trace_rejected {id : ServiceInstanceId} {inst : ServiceInstance} {svc : ServiceDescriptor}
    (h : r.Considered q id inst svc) :
    (∀ rej ∈ (r.trace q id).rejected, rej.instance_id = inst.instance_id) ∧
      (r.trace q id).ranked.length + (r.trace q id).rejected.length =
        if r.rejectByState q inst = none ∧ r.protocolVerdict q inst = .incompatible then 2 else 1 := by
  rw [trace_considered h]
  unfold considerInstance rankOrReject
  rcases hstate : r.rejectByState q inst with _ | rejection
  · rcases hproto : r.protocolVerdict q inst <;> rcases hreq : r.rejectByRequirement q svc inst with _ | rejection <;>
      simp [Walk.reject]
  · simp [Walk.reject]

theorem trace_ranked_id {id : ServiceInstanceId} {cs : CandidateScore} (hkey : wellKeyed.Holds r)
    (h : cs ∈ (r.trace q id).ranked) :
    cs.instance_id = id ∧ ∃ inst svc, r.Considered q id inst svc ∧ r.Passes q inst svc := by
  by_cases hc : ∃ inst svc, r.Considered q id inst svc
  · obtain ⟨inst, svc, hc⟩ := hc
    rcases trace_ranked hc with ⟨hp, heq⟩ | ⟨_, heq⟩ <;> rw [heq] at h
    · rw [List.mem_singleton.1 h]
      exact ⟨hkey.instances id inst hc.stored, inst, svc, hc, hp⟩
    · cases h
  · rw [(trace_not_considered fun inst svc h => hc ⟨inst, svc, h⟩).2.2] at h
    cases h

theorem trace_rejected_id {id : ServiceInstanceId} {rej : CandidateRejection} (hkey : wellKeyed.Holds r)
    (h : rej ∈ (r.trace q id).rejected) : rej.instance_id = id := by
  by_cases hc : ∃ inst svc, r.Considered q id inst svc
  · obtain ⟨inst, svc, hc⟩ := hc
    rw [(trace_rejected hc).1 rej h]
    exact hkey.instances id inst hc.stored
  · rw [(trace_not_considered fun inst svc h => hc ⟨inst, svc, h⟩).2.1] at h
    cases h

/-! ## Results -/

theorem query_rejected (r : Registry) (scan : List ServiceInstanceId) (q : RegistryQuery) :
    (r.query scan q).rejected = scan.flatMap fun id => (r.trace q id).rejected := by
  simp only [query, walk_eq, sum_rejected, List.flatMap_map, List.nil_append]

theorem query_total (r : Registry) (scan : List ServiceInstanceId) (q : RegistryQuery) :
    (r.query scan q).total_considered = (scan.map fun id => (r.trace q id).total_considered).sum := by
  simp only [query, walk_eq, sum_considered, List.map_map, Nat.zero_add]
  rfl

/-- The ranked entries before they are sorted. -/
def scores (r : Registry) (q : RegistryQuery) (scan : List ServiceInstanceId) : List CandidateScore :=
  scan.flatMap fun id => (r.trace q id).ranked

theorem query_ranked (r : Registry) (scan : List ServiceInstanceId) (q : RegistryQuery) :
    (r.query scan q).ranked = (ranking before (r.scores q scan)).mapIdx fun i cs => { cs with rank := i } := by
  simp only [query, walk_eq, sum_ranked, List.flatMap_map, List.nil_append]
  rfl

theorem query_rankedIds (r : Registry) (scan : List ServiceInstanceId) (q : RegistryQuery) :
    (r.query scan q).rankedIds.Perm ((r.scores q scan).map (·.instance_id)) := by
  have h : (r.query scan q).rankedIds = (ranking before (r.scores q scan)).map (·.instance_id) := by
    rw [RegistryResult.rankedIds, query_ranked]
    apply List.ext_getElem <;> simp
  rw [h]
  exact (ranking_perm _ _).map _

/-- The entries that each id of a list leaves under its own name. -/
theorem count_flatMap {β : Type} {f : ServiceInstanceId → List β} {key : β → ServiceInstanceId}
    (hkey : ∀ id, ∀ x ∈ f id, key x = id) {ids : List ServiceInstanceId} (hn : ids.Nodup) (id : ServiceInstanceId) :
    ((ids.flatMap f).map key).count id = if id ∈ ids then (f id).length else 0 := by
  induction ids with
  | nil => simp
  | cons a ids ih =>
    have hmap : (f a).map key = List.replicate (f a).length a :=
      List.eq_replicate_iff.2 ⟨List.length_map _, by simpa using hkey a⟩
    rw [List.nodup_cons] at hn
    rw [List.flatMap_cons, List.map_append, List.count_append, ih hn.2, hmap, List.count_replicate]
    by_cases ha : a = id
    · subst ha
      simp [hn.1]
    · have ha' : ¬ id = a := fun h => ha h.symm
      simp [ha, ha']

section
variable {scan : List ServiceInstanceId}

theorem mem_scan (hscan : scan.Perm r.instances.keys) {id : ServiceInstanceId} {inst : ServiceInstance}
    (h : r.instances[id]? = some inst) : id ∈ scan := by
  simp [hscan.mem_iff, Std.ExtTreeMap.mem_keys, Std.ExtTreeMap.mem_iff_isSome_getElem?, h]

theorem nodup_scan (hscan : scan.Perm r.instances.keys) : scan.Nodup := hscan.nodup_iff.2 r.instances.nodup_keys

theorem count_rankedIds (hkey : wellKeyed.Holds r) (hscan : scan.Perm r.instances.keys) (id : ServiceInstanceId) :
    (r.query scan q).rankedIds.count id = if id ∈ scan then (r.trace q id).ranked.length else 0 := by
  rw [(query_rankedIds r scan q).count_eq]
  exact count_flatMap (fun _ _ h => (trace_ranked_id hkey h).1) (nodup_scan hscan) id

theorem count_rejectedIds (hkey : wellKeyed.Holds r) (hscan : scan.Perm r.instances.keys) (id : ServiceInstanceId) :
    (r.query scan q).rejectedIds.count id = if id ∈ scan then (r.trace q id).rejected.length else 0 := by
  rw [RegistryResult.rejectedIds, query_rejected]
  exact count_flatMap (fun _ _ h => trace_rejected_id hkey h) (nodup_scan hscan) id

/-- What is ranked: the considered instances that pass. -/
theorem mem_rankedIds (hkey : wellKeyed.Holds r) (hscan : scan.Perm r.instances.keys) {id : ServiceInstanceId} :
    id ∈ (r.query scan q).rankedIds ↔ ∃ inst svc, r.Considered q id inst svc ∧ r.Passes q inst svc := by
  rw [(query_rankedIds r scan q).mem_iff, scores, List.mem_map]
  constructor
  · rintro ⟨cs, hcs, rfl⟩
    obtain ⟨a, _, hcs⟩ := List.mem_flatMap.1 hcs
    obtain ⟨rfl, h⟩ := trace_ranked_id hkey hcs
    exact h
  · rintro ⟨inst, svc, hc, hp⟩
    rcases trace_ranked hc with ⟨_, heq⟩ | ⟨hnot, _⟩
    · refine ⟨r.score q svc inst, List.mem_flatMap.2 ⟨id, mem_scan hscan hc.stored, by rw [heq]; simp⟩, ?_⟩
      exact hkey.instances id inst hc.stored
    · exact absurd hp hnot

/-- No instance is ranked twice. -/
theorem nodup_rankedIds (hkey : wellKeyed.Holds r) (hscan : scan.Perm r.instances.keys) :
    (r.query scan q).rankedIds.Nodup := by
  refine List.nodup_iff_count_le_one.2 fun id => ?_
  rw [count_rankedIds hkey hscan]
  split_ifs with hid
  · by_cases hc : ∃ inst svc, r.Considered q id inst svc
    · obtain ⟨inst, svc, hc⟩ := hc
      rcases trace_ranked hc with ⟨_, heq⟩ | ⟨_, heq⟩ <;> simp [heq]
    · simp [(trace_not_considered fun inst svc h => hc ⟨inst, svc, h⟩).2.2]
  · exact Nat.zero_le _

end

/-! ## The filters one by one -/

theorem ite_some_eq_none {α : Type} {c : Prop} [Decidable c] {a : α} {e : Option α} :
    (if c then some a else e) = none ↔ ¬ c ∧ e = none := by
  by_cases h : c <;> simp [h]

/-- The filters up to the protocol requirement. -/
structure StateAccepted (r : Registry) (q : RegistryQuery) (inst : ServiceInstance) : Prop where
  historical : q.current_only = true → historical inst.lifecycle = false
  stale : inst.lifecycle ≠ Lifecycle.STALE
  invalidated : inst.lifecycle ≠ Lifecycle.INVALIDATED
  tombstoned : inst.lifecycle ≠ Lifecycle.TOMBSTONED
  live : r.authority.is_boot_live inst.boot = true
  freshness : freshness_meets inst.freshness q.required_freshness = true
  lease : r.leaseActive inst.lease = true
  readiness : readiness_meets inst.readiness q.required_readiness = true
  health : health_meets inst.health q.required_health = true
  reachability : reachability_meets inst.reachability q.required_reachability = true

theorem rejectByState_none {inst : ServiceInstance} : r.rejectByState q inst = none ↔ r.StateAccepted q inst := by
  simp only [rejectByState, ite_some_eq_none, Bool.not_eq_true', Bool.not_eq_false, Bool.and_eq_true, not_and,
    Bool.not_eq_true, and_true]
  exact ⟨fun ⟨h₁, h₂, h₃, h₄, h₅, h₆, h₇, h₈, h₉, h₁₀⟩ => ⟨h₁, h₂, h₃, h₄, h₅, h₆, h₇, h₈, h₉, h₁₀⟩,
    fun ⟨h₁, h₂, h₃, h₄, h₅, h₆, h₇, h₈, h₉, h₁₀⟩ => ⟨h₁, h₂, h₃, h₄, h₅, h₆, h₇, h₈, h₉, h₁₀⟩⟩

theorem Passes.accepted {inst : ServiceInstance} {svc : ServiceDescriptor} (h : r.Passes q inst svc) :
    r.StateAccepted q inst := rejectByState_none.1 h.state

end Registry

end RuntimeRegistry
