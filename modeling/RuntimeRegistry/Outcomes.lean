import RuntimeRegistry.Discovery
/-!
# Outcomes

The outcome of a query against its lists. The flags of the walk tell which kinds
of rejections there are, and the outcome is named after the first kind of a fixed
order, whatever other kinds there are: stale, unready, unhealthy, unreachable.
-/
open Lib

namespace RuntimeRegistry

namespace RejectionCategory

/-! The rejections that an outcome is named after. -/

def stale : List RejectionCategory := [.STALE, .STALE_AUTHORITY, .LEASE_INVALID, .INVALIDATED, .TOMBSTONED]

def unready : List RejectionCategory := [.UNREADY]

def unhealthy : List RejectionCategory := [.UNHEALTHY]

def unreachable : List RejectionCategory := [.UNREACHABLE]

end RejectionCategory

open RejectionCategory (stale unready unhealthy unreachable)

/-- Some entry of the rejected list has one of the categories. -/
def RegistryResult.Rejects (res : RegistryResult) (cats : List RejectionCategory) : Prop :=
  ∃ rej ∈ res.rejected, rej.category ∈ cats

/-- The outcome stands for an answer with rejections of these categories and
nothing else. -/
def RegistryResult.SaysOnly (res : RegistryResult) (o : QueryOutcome) (cats : List RejectionCategory) : Prop :=
  res.outcome = o → res.ranked = [] ∧ ∀ rej ∈ res.rejected, rej.category ∈ cats

/-- The outcome names what is found or, of the kinds of rejections, the first. -/
structure RegistryResult.Truthful (res : RegistryResult) : Prop where
  found_exact : res.outcome = .FOUND_EXACT ↔ res.ranked.length = 1
  found_multiple : res.outcome = .FOUND_MULTIPLE ↔ 2 ≤ res.ranked.length
  stale_only : res.outcome = .STALE_ONLY ↔ res.ranked = [] ∧ res.Rejects stale
  unready_only : res.outcome = .UNREADY_ONLY ↔ res.ranked = [] ∧ res.Rejects unready ∧ ¬ res.Rejects stale
  unhealthy_only : res.outcome = .UNHEALTHY_ONLY ↔
    res.ranked = [] ∧ res.Rejects unhealthy ∧ ¬ res.Rejects stale ∧ ¬ res.Rejects unready
  unreachable_only : res.outcome = .UNREACHABLE_ONLY ↔
    res.ranked = [] ∧ res.Rejects unreachable ∧ ¬ res.Rejects stale ∧ ¬ res.Rejects unready ∧ ¬ res.Rejects unhealthy

namespace Registry

variable {r : Registry} {q : RegistryQuery}

/-! ## What the flags tell -/

/-- The flags against the lists of the walk. The flag for what is not compatible
is left out: an instance of another kind sets it and is not rejected. -/
structure Walk.Told (w : Walk) : Prop where
  stale : w.saw_stale = w.rejected.any (·.category ∈ stale)
  unready : w.saw_unready = w.rejected.any (·.category ∈ unready)
  unhealthy : w.saw_unhealthy = w.rejected.any (·.category ∈ unhealthy)
  unreachable : w.saw_unreachable = w.rejected.any (·.category ∈ unreachable)
  any : w.saw_any = false → w.rejected = []

theorem Walk.Told.reject {w : Walk} (h : w.Told) (id : ServiceInstanceId) (rejection : Rejection) :
    (w.reject id rejection).Told where
  stale := by simp only [Walk.reject, h.stale, List.any_append, List.any_cons, List.any_nil, Bool.or_false]; rfl
  unready := by simp [Walk.reject, h.unready, RejectionCategory.unready]
  unhealthy := by simp [Walk.reject, h.unhealthy, RejectionCategory.unhealthy]
  unreachable := by simp [Walk.reject, h.unreachable, RejectionCategory.unreachable]
  any hany := by cases hany

/-- The other writes of the walk leave the rejections and their flags. -/
theorem Walk.Told.keeps {w w' : Walk} (h : w.Told) (hrejected : w'.rejected = w.rejected)
    (hstale : w'.saw_stale = w.saw_stale) (hunready : w'.saw_unready = w.saw_unready)
    (hunhealthy : w'.saw_unhealthy = w.saw_unhealthy) (hunreachable : w'.saw_unreachable = w.saw_unreachable)
    (hany : w'.saw_any = false → w.saw_any = false) : w'.Told where
  stale := by rw [hstale, hrejected, h.stale]
  unready := by rw [hunready, hrejected, h.unready]
  unhealthy := by rw [hunhealthy, hrejected, h.unhealthy]
  unreachable := by rw [hunreachable, hrejected, h.unreachable]
  any hno := by rw [hrejected, h.any (hany hno)]

theorem Walk.Told.rankOrReject {w : Walk} (h : w.Told) (svc : ServiceDescriptor) (inst : ServiceInstance) :
    (r.rankOrReject q svc inst w).Told := by
  unfold Registry.rankOrReject
  split
  · exact h.reject _ _
  · exact h.keeps rfl rfl rfl rfl rfl (by simp)

theorem Walk.Told.considerInstance {w : Walk} (h : w.Told) (svc : ServiceDescriptor) (inst : ServiceInstance) :
    (r.considerInstance q svc inst w).Told := by
  unfold Registry.considerInstance
  split
  · exact h.reject _ _
  · split
    · exact h.reject _ _
    · exact (h.reject _ _).rankOrReject _ _
    · exact h.rankOrReject _ _

theorem Walk.Told.consider {w : Walk} (h : w.Told) (id : ServiceInstanceId) : (r.consider q w id).Told := by
  unfold Registry.consider
  split
  · exact h
  split
  · exact h
  split_ifs
  · exact h
  · exact h.keeps rfl rfl rfl rfl rfl (by simp)
  · refine Walk.Told.considerInstance ?_ _ _
    exact h.keeps rfl rfl rfl rfl rfl fun hany => hany

theorem walk_told (scan : List ServiceInstanceId) {w : Walk} (h : w.Told) : (scan.foldl (r.consider q) w).Told := by
  induction scan generalizing w with
  | nil => exact h
  | cons id scan ih => exact ih (h.consider id)

/-! ## The outcome -/

theorem any_rejected (rejected : List CandidateRejection) (cats : List RejectionCategory) :
    rejected.any (·.category ∈ cats) = true ↔ ∃ rej ∈ rejected, rej.category ∈ cats := by
  simp

/-- The outcome of a walk, by the number of ranked instances and the flags. -/
theorem outcome_ranked (w : Walk) :
    (outcome w = .FOUND_EXACT ↔ w.ranked.length = 1) ∧ (outcome w = .FOUND_MULTIPLE ↔ 2 ≤ w.ranked.length) := by
  unfold outcome
  rcases w.ranked with _ | ⟨cs, _ | ⟨cs', ranked⟩⟩
  · split_ifs <;> simp_all
  · simp
  · simp

theorem outcome_rejected {w : Walk} (h : w.Told) :
    (outcome w = .STALE_ONLY ↔ w.ranked = [] ∧ w.saw_stale = true) ∧
    (outcome w = .UNREADY_ONLY ↔ w.ranked = [] ∧ w.saw_unready = true ∧ w.saw_stale = false) ∧
    (outcome w = .UNHEALTHY_ONLY ↔
      w.ranked = [] ∧ w.saw_unhealthy = true ∧ w.saw_stale = false ∧ w.saw_unready = false) ∧
    (outcome w = .UNREACHABLE_ONLY ↔ w.ranked = [] ∧ w.saw_unreachable = true ∧ w.saw_stale = false ∧
      w.saw_unready = false ∧ w.saw_unhealthy = false) := by
  -- a walk that saw nothing has no rejection, so none of the flags is set
  have hany : w.saw_any = false → w.saw_stale = false ∧ w.saw_unready = false ∧ w.saw_unhealthy = false ∧
      w.saw_unreachable = false := by
    intro hno
    simp [h.stale, h.unready, h.unhealthy, h.unreachable, h.any hno]
  unfold outcome
  by_cases hranked : w.ranked = []
  · rcases hsaw : w.saw_any
    · obtain ⟨hstale, hunready, hunhealthy, hunreachable⟩ := hany hsaw
      simp [hranked, hstale, hunready, hunhealthy, hunreachable]
    · simp only [hranked, ne_eq, not_true_eq_false, if_false, Bool.not_true, Bool.false_eq_true, true_and]
      generalize w.saw_stale = stale, w.saw_unready = unready, w.saw_unhealthy = unhealthy,
        w.saw_unreachable = unreachable, w.saw_incompatible = incompatible, w.saw_insufficient = insufficient
      revert stale unready unhealthy unreachable incompatible insufficient
      decide
  · simp only [hranked, ne_eq, not_false_eq_true, if_true, false_and]
    split_ifs <;> simp

theorem query_outcome (r : Registry) (scan : List ServiceInstanceId) (q : RegistryQuery) :
    (r.query scan q).outcome = outcome (scan.foldl (r.consider q) {}) := rfl

theorem length_query_ranked (r : Registry) (scan : List ServiceInstanceId) (q : RegistryQuery) :
    (r.query scan q).ranked.length = (scan.foldl (r.consider q) {}).ranked.length := by
  simp [query]

/-- The outcome of every query, over every walk of the instances. -/
theorem query_truthful (r : Registry) (scan : List ServiceInstanceId) (q : RegistryQuery) :
    (r.query scan q).Truthful := by
  have htold : (scan.foldl (r.consider q) {}).Told := walk_told scan ⟨rfl, rfl, rfl, rfl, fun _ => rfl⟩
  have hranked : (r.query scan q).ranked = [] ↔ (scan.foldl (r.consider q) {}).ranked = [] := by
    rw [← List.length_eq_zero_iff, length_query_ranked, List.length_eq_zero_iff]
  -- each flag of the walk is set if there is a rejection of its kind
  have hflag : ∀ cats, (r.query scan q).Rejects cats ↔
      (scan.foldl (r.consider q) {}).rejected.any (·.category ∈ cats) = true :=
    fun cats => (any_rejected _ cats).symm
  obtain ⟨hexact, hmultiple⟩ := outcome_ranked (scan.foldl (r.consider q) {})
  obtain ⟨hstale, hunready, hunhealthy, hunreachable⟩ := outcome_rejected htold
  rw [htold.stale] at hstale
  rw [htold.stale, htold.unready] at hunready
  rw [htold.stale, htold.unready, htold.unhealthy] at hunhealthy
  rw [htold.stale, htold.unready, htold.unhealthy, htold.unreachable] at hunreachable
  refine ⟨?_, ?_, ?_, ?_, ?_, ?_⟩ <;> simp only [query_outcome, length_query_ranked, hranked, hflag, Bool.not_eq_true]
  exacts [hexact, hmultiple, hstale, hunready, hunhealthy, hunreachable]

/-! An instance that is stale and one that is not ready. -/

def Sample.mixed : Registry := Registry.fresh.after (Sample.setup ++ [
  .register_service { Sample.service with service_id := ⟨4⟩ } Sample.env,
  .register_instance { Sample.incarnation 6 1 with service_id := ⟨4⟩, freshness := Freshness.STALE } Sample.env])

def Sample.draining : RegistryQuery := { required_readiness := Readiness.DRAINING }

/-- A query that rejects the one for its freshness and the other for its
readiness says that there are stale instances only. -/
theorem query_stale_only_mixed : Sample.mixed.Reachable ∧
    ¬ (Sample.mixed.query Sample.mixed.instances.keys Sample.draining).SaysOnly .STALE_ONLY stale := by
  refine ⟨Reachable.after (.refl _) _, fun h => ?_⟩
  have honly := (h (by decide +kernel)).2
  have hunready : ∃ rej ∈ (Sample.mixed.query Sample.mixed.instances.keys Sample.draining).rejected,
      rej.category ∉ stale := by
    decide +kernel
  obtain ⟨rej, hrej, hnot⟩ := hunready
  exact hnot (honly rej hrej)

end Registry

end RuntimeRegistry
