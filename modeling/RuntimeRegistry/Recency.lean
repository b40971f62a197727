import RuntimeRegistry.Ordering
import RuntimeRegistry.Printing
/-!
# Recency

The factor that ranks newer versions first weighs a version by one number,
`major * 100 + minor * 10 + patch`. The number keeps the order of versions as long
as nothing carries over: eleven minor releases outweigh a major one. Its double is added
to those of the other factors, and from 2^53 on a sum is rounded.
-/
open Lib

namespace RuntimeRegistry

open Registry (recency)

/-! ## The number -/

/-- A number that 64 bits hold. -/
def Fits64 (n : ℤ) : Prop := -2 ^ 63 ≤ n ∧ n < 2 ^ 63

namespace SemanticVersion

variable {v v' : SemanticVersion}

/-- The recency of a version, without bound. -/
def weighed (v : SemanticVersion) : ℤ := v.major.toInt * 100 + v.minor.toInt * 10 + v.patch.toInt

/-- No step of the 64-bit computation overflows: each is what it is without bound. -/
structure Computed (v : SemanticVersion) : Prop where
  hundreds : (v.major * 100).toInt = v.major.toInt * 100
  tens : (v.minor * 10).toInt = v.minor.toInt * 10
  sum : (v.major * 100 + v.minor * 10).toInt = v.major.toInt * 100 + v.minor.toInt * 10
  recency : (recency v).toInt = v.weighed

/-- The numbers that the computation goes through fit. -/
structure StepsFit (v : SemanticVersion) : Prop where
  hundreds : Fits64 (v.major.toInt * 100)
  tens : Fits64 (v.minor.toInt * 10)
  sum : Fits64 (v.major.toInt * 100 + v.minor.toInt * 10)
  weighed : Fits64 v.weighed

theorem bmod_eq_iff (n : ℤ) : n.bmod (2 ^ 64) = n ↔ Fits64 n := by
  unfold Fits64
  constructor
  · intro h
    have hle := Int.le_bmod (x := n) (m := 2 ^ 64) (by decide)
    have hlt := Int.bmod_lt (x := n) (m := 2 ^ 64) (by decide)
    omega
  · intro h
    exact Int.bmod_eq_of_le (by omega) (by omega)

theorem computed_iff (v : SemanticVersion) : v.Computed ↔ v.StepsFit := by
  have hhundred : (100 : Int64).toInt = 100 := by decide
  have hten : (10 : Int64).toInt = 10 := by decide
  have hundreds : (v.major * 100).toInt = v.major.toInt * 100 ↔ Fits64 (v.major.toInt * 100) := by
    rw [Int64.toInt_mul, hhundred, bmod_eq_iff]
  have tens : (v.minor * 10).toInt = v.minor.toInt * 10 ↔ Fits64 (v.minor.toInt * 10) := by
    rw [Int64.toInt_mul, hten, bmod_eq_iff]
  have hsum : (v.major * 100).toInt = v.major.toInt * 100 → (v.minor * 10).toInt = v.minor.toInt * 10 →
      ((v.major * 100 + v.minor * 10).toInt = v.major.toInt * 100 + v.minor.toInt * 10 ↔
        Fits64 (v.major.toInt * 100 + v.minor.toInt * 10)) := by
    intro h1 h2
    rw [Int64.toInt_add, h1, h2, bmod_eq_iff]
  have htotal : (v.major * 100 + v.minor * 10).toInt = v.major.toInt * 100 + v.minor.toInt * 10 →
      ((recency v).toInt = v.weighed ↔ Fits64 v.weighed) := by
    intro h
    rw [recency, Int64.toInt_add, h, ← bmod_eq_iff]
    rfl
  -- each step is read off the steps before it
  constructor
  · rintro ⟨h1, h2, h3, h4⟩
    exact ⟨hundreds.1 h1, tens.1 h2, (hsum h1 h2).1 h3, (htotal h3).1 h4⟩
  · rintro ⟨h1, h2, h3, h4⟩
    have hs := (hsum (hundreds.2 h1) (tens.2 h2)).2 h3
    exact ⟨hundreds.2 h1, tens.2 h2, hs, (htotal hs).2 h4⟩

/-- A version whose numbers are not negative is weighed without overflow if its weight
fits, and only then. -/
theorem computed_nonneg (h : 0 ≤ v.major.toInt ∧ 0 ≤ v.minor.toInt ∧ 0 ≤ v.patch.toInt) :
    v.Computed ↔ v.weighed < 2 ^ 63 := by
  obtain ⟨hmajor, hminor, hpatch⟩ := h
  rw [computed_iff]
  constructor
  · intro hfit
    exact hfit.weighed.2
  · intro hlt
    unfold weighed at hlt
    refine ⟨⟨?_, ?_⟩, ⟨?_, ?_⟩, ⟨?_, ?_⟩, ⟨?_, hlt⟩⟩ <;> try unfold weighed
    all_goals omega

/-- The version is newer, and neither is a prerelease. -/
structure Newer (v v' : SemanticVersion) : Prop where
  compare : 0 < v.compare v'
  prerelease : v.prerelease = [] ∧ v'.prerelease = []

theorem Newer.ne (h : Newer v v') : v ≠ v' := by
  rintro rfl
  have hself : v.compare v = 0 := by simp [SemanticVersion.compare, h.prerelease.1]
  have hpos := h.compare
  rw [hself] at hpos
  exact absurd hpos (lt_irrefl 0)

end SemanticVersion

open SemanticVersion (Newer computed_nonneg parse_nonneg)

namespace Registry

variable {r : Registry} {q : RegistryQuery} {scan : List ServiceInstanceId} {a b : CandidateScore}
  {v v' : SemanticVersion}

/-! ## Two candidates -/

/-- The candidate is ranked, and its service has the version. -/
structure RankedAt (r : Registry) (scan : List ServiceInstanceId) (q : RegistryQuery) (a : CandidateScore)
    (v : SemanticVersion) : Prop where
  ranked : a ∈ (r.query scan q).ranked
  version : ∃ inst svc, r.instances[a.instance_id]? = some inst ∧ r.services[inst.service_id]? = some svc ∧ svc.version = v

/-- The two candidates have the same factors, but for the recency of the version. -/
def SameOtherFactors (a b : CandidateScore) : Prop :=
  a.factors.filter (·.1 ≠ .VERSION_RECENCY) = b.factors.filter (·.1 ≠ .VERSION_RECENCY)

/-- A ranked candidate is a score with its position as the rank. -/
theorem mem_ranked (hkey : wellKeyed.Holds r) (ha : a ∈ (r.query scan q).ranked) :
    ∃ inst svc, r.Considered q a.instance_id inst svc ∧ a.factors = r.factors q svc inst ∧
      r.Passes q inst svc ∧ a.total = (r.factors q svc inst).foldl (fun total f => double (total + f.2)) 0 := by
  rw [query_ranked, List.mem_mapIdx] at ha
  obtain ⟨i, hi, rfl⟩ := ha
  have hmem := (ranking_perm before (r.scores q scan)).mem_iff.1 (List.getElem_mem hi)
  obtain ⟨id, _, hmem⟩ := List.mem_flatMap.1 hmem
  obtain ⟨hid, inst, svc, hc, _⟩ := trace_ranked_id hkey hmem
  rcases trace_ranked hc with ⟨hpass, heq⟩ | ⟨_, heq⟩
  · rw [heq, List.mem_singleton] at hmem
    have hc' : r.Considered q ((ranking before (r.scores q scan))[i]).instance_id inst svc := hid ▸ hc
    refine ⟨inst, svc, hc', ?_, hpass, ?_⟩ <;> dsimp only <;> rw [hmem] <;> rfl
  · rw [heq] at hmem
    cases hmem

/-! ## Totals -/

/-- The total of factors with a weight in the place of the recency. -/
def totalWith (fs : List (SelectionFactor × ℚ)) (weight : ℤ) : ℚ :=
  fs.foldl (fun total f => double (total + if f.1 = .VERSION_RECENCY then double weight else f.2)) 0

/-- Added to the other factors, the two weights come to one double. -/
def Merged (fs : List (SelectionFactor × ℚ)) (v v' : SemanticVersion) : Prop :=
  totalWith fs v.weighed = totalWith fs v'.weighed

/-- So it is with the other factors that the stored instance has in the query. -/
def Merges (r : Registry) (q : RegistryQuery) (id : ServiceInstanceId) (v v' : SemanticVersion) : Prop :=
  ∃ inst svc, r.instances[id]? = some inst ∧ r.services[inst.service_id]? = some svc ∧ Merged (r.factors q svc inst) v v'

theorem double_mono {x y : ℚ} (h : x ≤ y) : double x ≤ double y := rounded_mono (by decide) h

theorem totalWith_mono (fs : List (SelectionFactor × ℚ)) {w w' : ℤ} (h : w ≤ w') : totalWith fs w ≤ totalWith fs w' := by
  have hfrom : ∀ {t t' : ℚ}, t ≤ t' →
      fs.foldl (fun total f => double (total + if f.1 = .VERSION_RECENCY then double w else f.2)) t ≤
        fs.foldl (fun total f => double (total + if f.1 = .VERSION_RECENCY then double w' else f.2)) t' := by
    induction fs with
    | nil => exact id
    | cons f fs ih =>
      intro t t' ht
      refine ih (double_mono (add_le_add ht ?_))
      split_ifs
      · exact double_mono (by exact_mod_cast h)
      · exact le_rfl
  exact hfrom le_rfl

/-- The factors before the recency and those behind it. -/
theorem factors_split (r : Registry) (q : RegistryQuery) (svc : ServiceDescriptor) (inst : ServiceInstance) :
    ∃ front back : List (SelectionFactor × ℚ), (front.length = 8 ∧ back.length = 3) ∧
      (∀ f ∈ front ++ back, f.1 ≠ .VERSION_RECENCY) ∧
      r.factors q svc inst = front ++ (.VERSION_RECENCY, double (recency svc.version).toInt) :: back :=
  ⟨(r.factors q svc inst).take 8, (r.factors q svc inst).drop 9, ⟨rfl, rfl⟩, by simp [factors], rfl⟩

theorem others_split {front back : List (SelectionFactor × ℚ)} {x : ℚ}
    (h : ∀ f ∈ front ++ back, f.1 ≠ SelectionFactor.VERSION_RECENCY) :
    (front ++ (SelectionFactor.VERSION_RECENCY, x) :: back).filter (·.1 ≠ .VERSION_RECENCY) = front ++ back := by
  have hfront : front.filter (·.1 ≠ .VERSION_RECENCY) = front :=
    List.filter_eq_self.2 fun f hf => decide_eq_true (h f (List.mem_append_left _ hf))
  have hback : back.filter (·.1 ≠ .VERSION_RECENCY) = back :=
    List.filter_eq_self.2 fun f hf => decide_eq_true (h f (List.mem_append_right _ hf))
  rw [List.filter_append, List.filter_cons_of_neg (by simp), hfront, hback]

/-- What stands in the place of the recency does not matter. -/
theorem totalWith_replace (front back : List (SelectionFactor × ℚ)) (x y : ℚ) (w : ℤ) :
    totalWith (front ++ (.VERSION_RECENCY, x) :: back) w = totalWith (front ++ (.VERSION_RECENCY, y) :: back) w := by
  simp [totalWith, List.foldl_append]

/-- The candidate is ranked with the factors around the recency of the version. -/
structure Scored (r : Registry) (q : RegistryQuery) (a : CandidateScore) (v : SemanticVersion)
    (front back : List (SelectionFactor × ℚ)) : Prop where
  lengths : front.length = 8 ∧ back.length = 3
  others : ∀ f ∈ front ++ back, f.1 ≠ SelectionFactor.VERSION_RECENCY
  factors : a.factors = front ++ (.VERSION_RECENCY, double (recency v).toInt) :: back
  passed : ∃ inst svc, r.Passes q inst svc ∧ a.factors = r.factors q svc inst

theorem RankedAt.scored (hkey : wellKeyed.Holds r) (ha : r.RankedAt scan q a v) :
    a.total = totalWith a.factors (recency v).toInt ∧ ∃ front back, r.Scored q a v front back := by
  obtain ⟨inst, svc, hc, hfactors, hpass, htotal⟩ := mem_ranked hkey ha.ranked
  obtain ⟨inst', svc', hi, hs, rfl⟩ := ha.version
  obtain rfl : inst' = inst := Option.some.inj (hi.symm.trans hc.stored)
  obtain rfl : svc' = svc := Option.some.inj (hs.symm.trans hc.registered)
  obtain ⟨front, back, hlen, hne, hsplit⟩ := r.factors_split q svc' inst'
  refine ⟨?_, front, back, hlen, hne, hfactors.trans hsplit, inst', svc', hpass, hfactors⟩
  rw [htotal, hfactors, totalWith]
  refine List.foldl_ext _ _ _ fun total f hf => ?_
  rw [hsplit] at hf
  rcases List.mem_append.1 hf with hfront | hrest
  · rw [if_neg (hne f (List.mem_append_left _ hfront))]
  · rcases List.mem_cons.1 hrest with rfl | hback
    · rw [if_pos rfl]
    · rw [if_neg (hne f (List.mem_append_right _ hback))]

theorem RankedAt.merges_iff (hkey : wellKeyed.Holds r) (ha : r.RankedAt scan q a v) (u u' : SemanticVersion) :
    r.Merges q a.instance_id u u' ↔ Merged a.factors u u' := by
  obtain ⟨inst, svc, hc, hfactors, _⟩ := mem_ranked hkey ha.ranked
  rw [hfactors]
  refine ⟨?_, fun h => ⟨inst, svc, hc.stored, hc.registered, h⟩⟩
  rintro ⟨inst', svc', hi, hs, hmerged⟩
  obtain rfl : inst' = inst := Option.some.inj (hi.symm.trans hc.stored)
  obtain rfl : svc' = svc := Option.some.inj (hs.symm.trans hc.registered)
  exact hmerged

/-- Candidates with the same other factors come to the same total with the same weight. -/
theorem totalWith_same (hkey : wellKeyed.Holds r) (ha : r.RankedAt scan q a v) (hb : r.RankedAt scan q b v')
    (h : SameOtherFactors a b) (w : ℤ) : totalWith b.factors w = totalWith a.factors w := by
  obtain ⟨_, front, back, hsa⟩ := ha.scored hkey
  obtain ⟨_, front', back', hsb⟩ := hb.scored hkey
  rw [SameOtherFactors, hsa.factors, hsb.factors, others_split hsa.others, others_split hsb.others] at h
  obtain ⟨rfl, rfl⟩ := List.append_inj h (hsa.lengths.1.trans hsb.lengths.1.symm)
  rw [hsa.factors, hsb.factors]
  exact totalWith_replace _ _ _ _ _

/-! ## Sums that are not rounded -/

theorem double_intCast {n : ℤ} (h : |n| < 2 ^ 53) : double n = n := rounded_intCast h

theorem double_one : double 1 = 1 := by exact_mod_cast double_intCast (n := 1) (by decide)

/-- A ranked candidate has all the required capabilities. -/
theorem completeness_ranked {inst : ServiceInstance} {svc : ServiceDescriptor} (h : r.Passes q inst svc)
    (hsome : q.required_capabilities ≠ []) :
    double (double (double (r.capabilityCount q inst) / double q.required_capabilities.length) * 100) = 100 := by
  have hcapabilities : r.rejectByCapability inst q.required_capabilities = none := by
    have hrequirement := h.requirement
    rcases hreject : r.rejectByCapability inst q.required_capabilities with _ | rejection
    · rfl
    · simp [rejectByRequirement, hreject] at hrequirement
  have hall : q.required_capabilities.filter (fun req => r.satisfactionLoop req 1 inst.capabilities = -1) =
      q.required_capabilities := by
    refine List.filter_eq_self.2 fun req hreq => decide_eq_true ?_
    exact (satisfactionLoop_present req 1 (by decide) _).2 ((rejectByCapability_none _).1 hcapabilities req hreq)
  have hcount : r.capabilityCount q inst = q.required_capabilities.length := by rw [capabilityCount, hall]
  have hpos : (1 : ℚ) ≤ double q.required_capabilities.length := by
    have hlen : (1 : ℚ) ≤ q.required_capabilities.length := by exact_mod_cast List.length_pos_of_ne_nil hsome
    exact double_one ▸ double_mono hlen
  have hundred : double 100 = 100 := by exact_mod_cast double_intCast (n := 100) (by decide)
  rw [hcount, div_self (by linarith), double_one, one_mul, hundred]

/-- The other factors of a ranked candidate are small integers. -/
theorem factors_small {inst : ServiceInstance} {svc : ServiceDescriptor} (h : r.Passes q inst svc) :
    ∀ f ∈ r.factors q svc inst, f.1 ≠ .VERSION_RECENCY → f.2.den = 1 ∧ |f.2| ≤ 1000 := by
  have hcomplete : (if q.required_capabilities = [] then 100
      else double (double (double (r.capabilityCount q inst) / double q.required_capabilities.length) * 100)) = 100 := by
    split_ifs with hnone
    · rfl
    · exact completeness_ranked h hnone
  simp only [factors, hcomplete, List.forall_mem_cons, ne_eq, reduceCtorEq, not_false_eq_true, forall_const,
    not_true_eq_false, false_implies, true_and]
  refine ⟨?_, ?_, ?_, ?_, ?_, ?_, ?_, ?_, ?_, ?_, ?_, List.forall_mem_nil _⟩ <;>
    (try split_ifs) <;> exact ⟨by decide +kernel, by norm_num⟩

/-- Small integers are added up without rounding. -/
theorem foldl_exact {fs : List (SelectionFactor × ℚ)} (hne : ∀ f ∈ fs, f.1 ≠ SelectionFactor.VERSION_RECENCY)
    (hsmall : ∀ f ∈ fs, f.2.den = 1 ∧ |f.2| ≤ 1000) : ∃ k : ℤ, |k| ≤ 1000 * fs.length ∧ ∀ (x : ℚ) (n : ℤ),
      |n| + 1000 * fs.length < 2 ^ 53 →
        fs.foldl (fun total f => double (total + if f.1 = .VERSION_RECENCY then x else f.2)) n = ((n + k : ℤ) : ℚ) := by
  induction fs with
  | nil => exact ⟨0, by simp, fun x n _ => by simp⟩
  | cons f fs ih =>
    rw [List.forall_mem_cons] at hne hsmall
    obtain ⟨k, hk, hsum⟩ := ih hne.2 hsmall.2
    obtain ⟨m, hm⟩ : ∃ m : ℤ, f.2 = m := ⟨f.2.num, ((Rat.den_eq_one_iff _).1 hsmall.1.1).symm⟩
    have hbound : |m| ≤ 1000 := by
      have hle := hsmall.1.2
      rw [hm] at hle
      exact_mod_cast hle
    refine ⟨m + k, ?_, fun x n hn => ?_⟩
    · have htriangle := abs_add_le m k
      rw [List.length_cons]
      push_cast
      linarith
    · have htriangle := abs_add_le n m
      rw [List.length_cons] at hn
      push_cast at hn
      have hstep : double ((n : ℚ) + m) = ((n + m : ℤ) : ℚ) := by
        have hexact := double_intCast (n := n + m) (by linarith [Int.natCast_nonneg (n := fs.length)])
        exact_mod_cast hexact
      rw [List.foldl_cons, if_neg hne.1, hm, hstep, hsum x (n + m) (by linarith), add_assoc]

/-- As long as the weights are far from 2^53, different ones come to different totals. -/
theorem merged_iff (hkey : wellKeyed.Holds r) (ha : r.RankedAt scan q a v) (hv : |v.weighed| ≤ 2 ^ 52)
    (hv' : |v'.weighed| ≤ 2 ^ 52) : Merged a.factors v v' ↔ v.weighed = v'.weighed := by
  obtain ⟨_, front, back, hs⟩ := ha.scored hkey
  obtain ⟨inst, svc, hpass, hfactors⟩ := hs.passed
  have hsmall : ∀ f ∈ front ++ back, f.2.den = 1 ∧ |f.2| ≤ 1000 := by
    intro f hf
    refine factors_small hpass f ?_ (hs.others f hf)
    rw [← hfactors, hs.factors]
    rcases List.mem_append.1 hf with hfront | hback
    · exact List.mem_append_left _ hfront
    · exact List.mem_append_right _ (List.mem_cons_of_mem _ hback)
  obtain ⟨k, hk, hfront⟩ := foldl_exact (fun f hf => hs.others f (List.mem_append_left _ hf))
    fun f hf => hsmall f (List.mem_append_left _ hf)
  obtain ⟨k', hk', hback⟩ := foldl_exact (fun f hf => hs.others f (List.mem_append_right _ hf))
    fun f hf => hsmall f (List.mem_append_right _ hf)
  rw [hs.lengths.1] at hk hfront
  rw [hs.lengths.2] at hk' hback
  have htotal : ∀ w : ℤ, |w| ≤ 2 ^ 52 → totalWith a.factors w = ((0 + k + w + k' : ℤ) : ℚ) := by
    intro w hw
    have htriangle := abs_add_le (0 + k) w
    have hweight : double w = w := double_intCast (by linarith)
    have hstep : double (((0 + k : ℤ) : ℚ) + w) = ((0 + k + w : ℤ) : ℚ) := by
      have hexact := double_intCast (n := 0 + k + w) (by push_cast at hk; rw [zero_add] at htriangle ⊢; linarith)
      exact_mod_cast hexact
    have hzero := hfront (double w) 0 (by norm_num)
    rw [Int.cast_zero] at hzero
    rw [totalWith, hs.factors, List.foldl_append, List.foldl_cons, hzero, if_pos rfl, hweight, hstep]
    refine hback _ _ ?_
    push_cast at hk ⊢
    rw [zero_add] at htriangle ⊢
    linarith
  rw [Merged, htotal _ hv, htotal _ hv', Int.cast_inj]
  omega

/-- Of two ranked candidates the first is the one of a higher total, or of a
lower id among equals. -/
theorem rank_le_iff (hkey : wellKeyed.Holds r) (hscan : scan.Perm r.instances.keys) (ha : a ∈ (r.query scan q).ranked)
    (hb : b ∈ (r.query scan q).ranked) (hne : a ≠ b) :
    a.rank ≤ b.rank ↔ b.total < a.total ∨ a.total = b.total ∧ a.instance_id.value < b.instance_id.value := by
  have ho := query_ordered (q := q) hkey hscan
  obtain ⟨i, hi, rfl⟩ := List.mem_iff_getElem.1 ha
  obtain ⟨j, hj, rfl⟩ := List.mem_iff_getElem.1 hb
  have hrank : ∀ k (hk : k < (r.query scan q).ranked.length), (r.query scan q).ranked[k].rank = k := by
    intro k hk
    have h := congrArg (·[k]?) ho.ranks
    simpa [hk] using h
  have hpair := List.pairwise_iff_getElem.1 ho.ranked
  rw [hrank i hi, hrank j hj]
  rcases lt_trichotomy i j with hlt | rfl | hlt
  · exact iff_of_true hlt.le (hpair i j hi hj hlt)
  · exact absurd rfl hne
  · refine iff_of_false (not_le.2 hlt) ?_
    rcases hpair j i hj hi hlt with hgt | ⟨heq, hid⟩
    · rintro (h | ⟨h, _⟩)
      · exact absurd h (not_lt.2 hgt.le)
      · exact absurd h hgt.ne
    · rintro (h | ⟨_, h⟩)
      · exact absurd h (by simp [heq])
      · exact absurd h (UInt64.not_lt.2 (UInt64.le_of_lt hid))

/-- Of two candidates that differ in the recency only, the newer one is weighed
without overflow, as is the older one, and does not rank below it if the weights
fit in 64 bits and the newer one is heavier and stays so in the sum of doubles, or the
sums are the same and it has the lower id; and only then. Up to 2^52 the sums are the same
for the same weights only. The weight of a version that is read from a text whose numbers
fit is computed without overflow if it fits, and only then. -/
theorem newer_ranks_first_iff (h : r.Reachable) (hscan : scan.Perm r.instances.keys) (ha : r.RankedAt scan q a v)
    (hb : r.RankedAt scan q b v') (hfactors : SameOtherFactors a b) (hnewer : Newer v v') :
    ((v.Computed ∧ v'.Computed ∧ a.rank ≤ b.rank) ↔
      v.StepsFit ∧ v'.StepsFit ∧
        (v'.weighed < v.weighed ∧ ¬ r.Merges q a.instance_id v v' ∨
          r.Merges q a.instance_id v v' ∧ a.instance_id.value < b.instance_id.value)) ∧
    (|v.weighed| ≤ 2 ^ 52 → |v'.weighed| ≤ 2 ^ 52 → (r.Merges q a.instance_id v v' ↔ v.weighed = v'.weighed)) ∧
    ∀ after s w, SemanticVersion.parse after s = some w → FitThrough (SemanticVersion.numbers s) →
      (w.Computed ↔ w.weighed < 2 ^ 63) := by
  have hkey := wellKeyed_reachable h
  have hne : a ≠ b := by
    rintro rfl
    obtain ⟨inst, svc, hi, hs, rfl⟩ := ha.version
    obtain ⟨inst', svc', hi', hs', rfl⟩ := hb.version
    obtain rfl : inst' = inst := Option.some.inj (hi'.symm.trans hi)
    obtain rfl : svc' = svc := Option.some.inj (hs'.symm.trans hs)
    exact hnewer.ne rfl
  rw [ha.merges_iff hkey]
  refine ⟨?_, merged_iff hkey ha, fun after s w hparse hfit => computed_nonneg (parse_nonneg hfit hparse)⟩
  rw [SemanticVersion.computed_iff, SemanticVersion.computed_iff]
  refine and_congr_right fun hfit => and_congr_right fun hfit' => ?_
  have htotal : a.total = totalWith a.factors v.weighed := by
    rw [(ha.scored hkey).1, ((SemanticVersion.computed_iff v).2 hfit).recency]
  have htotal' : b.total = totalWith a.factors v'.weighed := by
    rw [(hb.scored hkey).1, ((SemanticVersion.computed_iff v').2 hfit').recency, totalWith_same hkey ha hb hfactors]
  rw [rank_le_iff hkey hscan ha.ranked hb.ranked hne, htotal, htotal', Merged]
  refine or_congr ?_ Iff.rfl
  -- a sum of doubles grows with the weight, if not strictly
  constructor
  · intro hlt
    refine ⟨lt_of_not_ge fun hle => ?_, hlt.ne'⟩
    exact absurd (totalWith_mono a.factors hle) (not_le.2 hlt)
  · rintro ⟨hlt, hsplit⟩
    exact lt_of_le_of_ne (totalWith_mono a.factors hlt.le) (Ne.symm hsplit)

/-! Two services in different versions, with an instance each. -/

def Sample.released (v v' : SemanticVersion) : Registry := Registry.fresh.after [
  .adopt_worker ⟨1⟩, .register_service { Sample.service with version := v } Sample.env,
  .register_service { Sample.service with service_id := ⟨4⟩, version := v' } Sample.env,
  .register_instance (Sample.incarnation 5 1) Sample.env,
  .register_instance { Sample.incarnation 6 1 with service_id := ⟨4⟩ } Sample.env]

theorem Sample.released_reachable (v v' : SemanticVersion) : (Sample.released v v').Reachable :=
  Reachable.after (.refl _) _

/-- The answer to a query with no requirement but the default ones. -/
def Sample.answer (v v' : SemanticVersion) : List CandidateScore :=
  ((Sample.released v v').query (Sample.released v v').instances.keys {}).ranked

/-- The two instances are ranked at the versions, with the same other factors. -/
structure Sample.Rivals (v v' : SemanticVersion) (a b : CandidateScore) : Prop where
  left : (Sample.released v v').RankedAt (Sample.released v v').instances.keys {} a v
  right : (Sample.released v v').RankedAt (Sample.released v v').instances.keys {} b v'
  factors : SameOtherFactors a b
  ids : a.instance_id = ⟨5⟩ ∧ b.instance_id = ⟨6⟩

theorem Sample.rivals {v v' : SemanticVersion}
    (hanswer : ∃ a ∈ Sample.answer v v', ∃ b ∈ Sample.answer v v', a.instance_id = ⟨5⟩ ∧ b.instance_id = ⟨6⟩ ∧
      a.factors.filter (·.1 ≠ .VERSION_RECENCY) = b.factors.filter (·.1 ≠ .VERSION_RECENCY))
    (hfirst : ∃ inst ∈ (Sample.released v v').instances[(⟨5⟩ : ServiceInstanceId)]?,
      ∃ svc ∈ (Sample.released v v').services[inst.service_id]?, svc.version = v)
    (hsecond : ∃ inst ∈ (Sample.released v v').instances[(⟨6⟩ : ServiceInstanceId)]?,
      ∃ svc ∈ (Sample.released v v').services[inst.service_id]?, svc.version = v') :
    ∃ a b, Sample.Rivals v v' a b := by
  obtain ⟨a, ha, b, hb, hid, hid', hfactors⟩ := hanswer
  obtain ⟨inst, hi, svc, hs, hv⟩ := hfirst
  obtain ⟨inst', hi', svc', hs', hv'⟩ := hsecond
  exact ⟨a, b, ⟨ha, inst, svc, hid ▸ hi, hs, hv⟩, ⟨hb, inst', svc', hid' ▸ hi', hs', hv'⟩, hfactors, hid, hid'⟩

theorem newer_ranks_first_sample : ∃ a b, Sample.Rivals { major := 1, minor := 10 } { major := 1, minor := 9 } a b ∧
    (((⟨1, 10, 0, [], []⟩ : SemanticVersion).Computed ∧ (⟨1, 9, 0, [], []⟩ : SemanticVersion).Computed ∧
        a.rank ≤ b.rank) ↔
      (⟨1, 10, 0, [], []⟩ : SemanticVersion).StepsFit ∧ (⟨1, 9, 0, [], []⟩ : SemanticVersion).StepsFit ∧
        ((⟨1, 9, 0, [], []⟩ : SemanticVersion).weighed < (⟨1, 10, 0, [], []⟩ : SemanticVersion).weighed ∧
            ¬ (Sample.released ⟨1, 10, 0, [], []⟩ ⟨1, 9, 0, [], []⟩).Merges {} a.instance_id ⟨1, 10, 0, [], []⟩ ⟨1, 9, 0, [], []⟩ ∨
          (Sample.released ⟨1, 10, 0, [], []⟩ ⟨1, 9, 0, [], []⟩).Merges {} a.instance_id ⟨1, 10, 0, [], []⟩ ⟨1, 9, 0, [], []⟩ ∧
            a.instance_id.value < b.instance_id.value)) := by
  obtain ⟨a, b, hrivals⟩ : ∃ a b, Sample.Rivals { major := 1, minor := 10 } { major := 1, minor := 9 } a b :=
    Sample.rivals (by decide +kernel) (by decide +kernel) (by decide +kernel)
  exact ⟨a, b, hrivals, (newer_ranks_first_iff (Sample.released_reachable _ _) (.refl _) hrivals.left hrivals.right
    hrivals.factors ⟨by decide, rfl, rfl⟩).1⟩

/-- The release 1.10.0 ranks below 1.9.11. Where a total is rounded, a release that differs
in the last number only ranks by its id. And a version that is read from a text is weighed
with an overflow. -/
theorem newer_ranks_below :
    (∃ a b, (Sample.released { major := 1, minor := 10 } { major := 1, minor := 9, patch := 11 }).Reachable ∧
      Sample.Rivals { major := 1, minor := 10 } { major := 1, minor := 9, patch := 11 } a b ∧
      Newer { major := 1, minor := 10 } { major := 1, minor := 9, patch := 11 } ∧ ¬ a.rank ≤ b.rank) ∧
    (∃ a b, (Sample.released { major := 100000000000000 } { major := 100000000000000, patch := 1 }).Reachable ∧
      Sample.Rivals { major := 100000000000000 } { major := 100000000000000, patch := 1 } a b ∧
      Newer { major := 100000000000000, patch := 1 } { major := 100000000000000 } ∧ ¬ b.rank ≤ a.rank) ∧
    ∃ w, SemanticVersion.parse (fun _ => none) (text "92233720368547759.0.0") = some w ∧ ¬ w.Computed := by
  refine ⟨?_, ?_, { major := 92233720368547759 }, by decide +kernel, fun h => absurd h.hundreds (by decide)⟩
  · obtain ⟨a, b, hrivals⟩ : ∃ a b,
        Sample.Rivals { major := 1, minor := 10 } { major := 1, minor := 9, patch := 11 } a b :=
      Sample.rivals (by decide +kernel) (by decide +kernel) (by decide +kernel)
    have hbelow : ∀ a ∈ Sample.answer { major := 1, minor := 10 } { major := 1, minor := 9, patch := 11 },
        ∀ b ∈ Sample.answer { major := 1, minor := 10 } { major := 1, minor := 9, patch := 11 },
          a.instance_id = ⟨5⟩ → b.instance_id = ⟨6⟩ → ¬ a.rank ≤ b.rank := by
      decide +kernel
    exact ⟨a, b, Sample.released_reachable _ _, hrivals, ⟨by decide, rfl, rfl⟩,
      hbelow a hrivals.left.ranked b hrivals.right.ranked hrivals.ids.1 hrivals.ids.2⟩
  · obtain ⟨a, b, hrivals⟩ : ∃ a b,
        Sample.Rivals { major := 100000000000000 } { major := 100000000000000, patch := 1 } a b :=
      Sample.rivals (by decide +kernel) (by decide +kernel) (by decide +kernel)
    have hbelow : ∀ a ∈ Sample.answer { major := 100000000000000 } { major := 100000000000000, patch := 1 },
        ∀ b ∈ Sample.answer { major := 100000000000000 } { major := 100000000000000, patch := 1 },
          a.instance_id = ⟨5⟩ → b.instance_id = ⟨6⟩ → ¬ b.rank ≤ a.rank := by
      decide +kernel
    exact ⟨a, b, Sample.released_reachable _ _, hrivals, ⟨by decide, rfl, rfl⟩,
      hbelow a hrivals.left.ranked b hrivals.right.ranked hrivals.ids.1 hrivals.ids.2⟩

end Registry

end RuntimeRegistry
