import RuntimeRegistry.Parsing
/-!
# Numbers beyond 64 bits

A number that fits is read exactly. One that does not fit overflows the accumulator
on the way, and what comes out is what the compiled code makes of it: its sums may wrap,
and its guard may be gone, since without an overflow it never strikes.
-/
open Lib

namespace RuntimeRegistry

variable {s : Text} {ps : List Text} {after : AfterOverflow}

/-! ## The calls of `parse_u64` -/

/-- The values `parse_u64` computes for its accumulator, up to one that overflows. -/
def accumulators (v : Int64) : Text → List ℤ
  | [] => []
  | c :: s =>
    if !isDigit c then []
    else (v.toInt * 10 + (digit c).toInt) ::
      if 2 ^ 63 ≤ v.toInt * 10 + (digit c).toInt then [] else accumulators (v * 10 + digit c) s

/-- The accumulators of one call, none where the text is refused at once. -/
def computed (p : Text) : List ℤ :=
  if p = [] ∨ (1 < p.length ∧ p.head? = some '0'.toUInt8) then [] else accumulators 0 p

/-- The texts that `parse_u64` is called on, up to the first that gives no value. -/
def calls : List Text → List Text
  | [] => []
  | p :: ps => p :: if ∃ n, parse_u64 p = .value n then calls ps else []

/-- The accumulator overflows if and only if the leading digits write 2^63 or more. -/
theorem accumulators_iff {v : Int64} {n : ℕ} (s : Text) (hv : v.toInt = n) (hn : n < 2 ^ 63) :
    (∀ m ∈ accumulators v s, m < 2 ^ 63) ↔ valueFrom n (leading s) < 2 ^ 63 := by
  induction s generalizing v n with
  | nil => simpa [accumulators, leading, valueFrom] using hn
  | cons c s ih =>
    by_cases hc : isDigit c
    · have hexact : v.toInt * 10 + (digit c).toInt = (10 * n + (c.toNat - 48) : ℕ) := by
        have hrange := (isDigit_iff c).1 hc
        rw [hv, digit_toInt hc]
        omega
      rw [leading_cons hc, valueFrom_cons, accumulators, hc, hexact]
      simp only [Bool.not_true, Bool.false_eq_true, if_false, List.forall_mem_cons]
      by_cases hroom : 10 * n + (c.toNat - 48) < 2 ^ 63
      · rw [if_neg (by exact_mod_cast not_le.2 hroom), ih (step_exact hv hc hroom) hroom]
        exact and_iff_right (by exact_mod_cast hroom)
      · have hle := le_valueFrom (10 * n + (c.toNat - 48)) (leading s)
        exact iff_of_false (fun h => hroom (by exact_mod_cast h.1)) (by omega)
    · simpa [leading_other hc, accumulators, hc, valueFrom] using hn

theorem computed_iff (p : Text) : (∀ m ∈ computed p, m < 2 ^ 63) ↔ Fits p := by
  rw [computed, Fits]
  by_cases hnil : p = []
  · subst hnil
    exact iff_of_true (by simp) (.inr (by decide))
  by_cases hzero : 1 < p.length ∧ p.head? = some '0'.toUInt8
  · rw [if_pos (.inr hzero)]
    exact iff_of_true (by simp) (.inl hzero)
  · rw [if_neg (by tauto), or_iff_right hzero]
    exact accumulators_iff p rfl (by decide)

theorem calls_iff (ps : List Text) : (∀ p ∈ calls ps, ∀ m ∈ computed p, m < 2 ^ 63) ↔ FitThrough ps := by
  induction ps with
  | nil => exact iff_of_true (by intro p hp; cases hp) trivial
  | cons p ps ih =>
    rw [calls, FitThrough, List.forall_mem_cons, computed_iff]
    refine and_congr_right fun hfits => ?_
    have hread : (∃ n, parse_u64 p = .value n) ↔ IsNumber p :=
      ⟨fun h => (parse_u64_value.1 h.choose_spec).1, fun h => h.read hfits⟩
    by_cases hp : IsNumber p
    · rw [if_pos (hread.2 hp), ih]
      exact ⟨fun h _ => h, fun h => h hp⟩
    · rw [if_neg (mt hread.1 hp)]
      exact iff_of_true (by intro q hq; cases hq) fun h => absurd h hp

/-! ## What the parsers read -/

/-- The three numbers are those the texts write, zero where there is none. -/
def Written (ps : List Text) (major minor patch : Int64) : Prop :=
  major.toInt = Numeral.value (ps.getD 0 []) ∧ minor.toInt = Numeral.value (ps.getD 1 []) ∧
    patch.toInt = Numeral.value (ps.getD 2 [])

/-- The texts of the numbers, if `SemanticVersion::parse` comes to read any. -/
def SemanticVersion.numbers (s : Text) : List Text := ((cut s).map Parts.numbers).getD []

theorem SemanticVersion.parse_reads {v : SemanticVersion} (h : parse after s = some v) :
    ∃ ns, readNumbers after (numbers s) = some ns ∧ (v.major, v.minor, v.patch) = (ns.getD 0 0, ns.getD 1 0, ns.getD 2 0) := by
  obtain ⟨p, hcut, ns, hns, rfl⟩ := parse_eq_some.1 h
  have hnumbers : numbers s = p.numbers := by rw [numbers, hcut]; rfl
  exact ⟨ns, hnumbers ▸ hns, rfl⟩

namespace StructuredVersion

/-- The texts of the numbers, if `parse_version_components` comes to read any. -/
def numbers (s : Text) : List Text := if s = [] ∨ 3 < (dotIdentifiers s).length then [] else dotIdentifiers s

theorem parse_eq_some {tag : VersionTag} {v : StructuredVersion tag} : parse after s = some v ↔
    (s ≠ [] ∧ (dotIdentifiers s).length ≤ 3) ∧ ∃ ns, readNumbers after (dotIdentifiers s) = some ns ∧
      (v.major, v.minor, v.patch) = (ns.getD 0 0, ns.getD 1 0, ns.getD 2 0) := by
  obtain ⟨major, minor, patch⟩ := v
  rw [parse, Option.map_eq_some_iff, parse_version_components]
  by_cases hs : s = []
  · simp [hs]
  by_cases hlong : 3 < (dotIdentifiers s).length
  · simp [hlong]
  · rw [if_neg hs, if_neg hlong, and_iff_right ⟨hs, not_lt.1 hlong⟩]
    simp only [Option.map_eq_some_iff, Prod.exists, mk.injEq, Prod.mk.injEq]
    constructor
    · rintro ⟨_, _, _, ⟨ns, hns, rfl, rfl, rfl⟩, rfl, rfl, rfl⟩
      exact ⟨ns, hns, rfl, rfl, rfl⟩
    · rintro ⟨ns, hns, rfl, rfl, rfl⟩
      exact ⟨_, _, _, ⟨ns, hns, rfl, rfl, rfl⟩, rfl, rfl, rfl⟩

theorem parse_reads {tag : VersionTag} {v : StructuredVersion tag} (h : parse after s = some v) :
    ∃ ns, readNumbers after (numbers s) = some ns ∧ (v.major, v.minor, v.patch) = (ns.getD 0 0, ns.getD 1 0, ns.getD 2 0) := by
  obtain ⟨⟨hs, hlen⟩, hread⟩ := parse_eq_some.1 h
  rwa [numbers, if_neg (by simp [hs, hlen])]

end StructuredVersion

/-! ## Exactness -/

/-- What a parser returns has the numbers that the texts write, and it returns nothing
where one of them needs 64 bits. -/
def Exact {ν : Type} (ps : List Text) (result : Option ν) (numbers : ν → Int64 × Int64 × Int64) : Prop :=
  (∀ v, result = some v → Written ps (numbers v).1 (numbers v).2.1 (numbers v).2.2) ∧
    ((∃ p ∈ ps, 2 ^ 63 ≤ Numeral.value p) → result = none)

theorem exact_of_reads {ν : Type} {result : Option ν} {numbers : ν → Int64 × Int64 × Int64} (hfit : FitThrough ps)
    (hreads : ∀ v, result = some v → ∃ ns, readNumbers after ps = some ns ∧
      numbers v = (ns.getD 0 0, ns.getD 1 0, ns.getD 2 0)) : Exact ps result numbers := by
  constructor
  · intro v hv
    obtain ⟨ns, hns, hnumbers⟩ := hreads v hv
    have hscan := (readNumbers_fit hfit).1 hns
    rw [hnumbers]
    exact ⟨scanAll_exact hscan 0, scanAll_exact hscan 1, scanAll_exact hscan 2⟩
  · rintro ⟨p, hp, hlarge⟩
    rcases hresult : result with _ | v
    · rfl
    · obtain ⟨ns, hns, _⟩ := hreads v hresult
      have hlt := (scanAll_isNumber ((readNumbers_fit hfit).1 hns) p hp).2
      omega

/-- Both parsers are exact on the text, and the accumulator never exceeds 2^63 - 1. -/
structure NumbersExact (after : AfterOverflow) (s : Text) : Prop where
  semantic : Exact (SemanticVersion.numbers s) (SemanticVersion.parse after s) fun v => (v.major, v.minor, v.patch)
  structured : ∀ tag : VersionTag, Exact (StructuredVersion.numbers s)
    (StructuredVersion.parse after s : Option (StructuredVersion tag)) fun v => (v.major, v.minor, v.patch)
  accumulators : ∀ p ∈ calls (SemanticVersion.numbers s) ++ calls (StructuredVersion.numbers s),
    ∀ m ∈ computed p, m ≤ 2 ^ 63 - 1

/-- However an overflow comes out, the numbers are exact if and only if, up to the first
text that is no number, every text a parser comes to read begins with digits that write
less than 2^63. -/
theorem numbers_exact_iff (after : AfterOverflow) (s : Text) :
    NumbersExact after s ↔ FitThrough (SemanticVersion.numbers s) ∧ FitThrough (StructuredVersion.numbers s) := by
  have hcalls : (∀ p ∈ calls (SemanticVersion.numbers s) ++ calls (StructuredVersion.numbers s),
      ∀ m ∈ computed p, m ≤ 2 ^ 63 - 1) ↔
        FitThrough (SemanticVersion.numbers s) ∧ FitThrough (StructuredVersion.numbers s) := by
    simp only [Int.le_sub_one_iff, List.forall_mem_append, calls_iff]
  constructor
  · intro h
    exact hcalls.1 h.accumulators
  · intro h
    exact ⟨exact_of_reads h.1 fun _ => SemanticVersion.parse_reads,
      fun _ => exact_of_reads h.2 fun _ => StructuredVersion.parse_reads, hcalls.2 h⟩

/-- The loop of `parse_u64` where sums wrap. An optimizing compiler drops the guard. -/
def wrappedFrom (guarded : Bool) (v : Int64) : Text → Option Int64
  | [] => some v
  | c :: s =>
    if !isDigit c then none
    else if guarded && v * 10 + digit c < 0 then none
    else wrappedFrom guarded (v * 10 + digit c) s

/-- The numbers as they are read where sums wrap, with the guard or without it. -/
def wrapped (guarded : Bool) : AfterOverflow := List.mapM fun p =>
  if p = [] ∨ (1 < p.length ∧ p.head? = some '0'.toUInt8) then none else wrappedFrom guarded 0 p

/-- 2^64 passes for zero where sums wrap, also with the guard. -/
theorem numbers_wrapped : ¬ NumbersExact (wrapped true) (text "18446744073709551616.0.0") := by
  intro h
  have hparse : SemanticVersion.parse (wrapped true) (text "18446744073709551616.0.0") = some {} := by decide +kernel
  have hnumbers : SemanticVersion.numbers (text "18446744073709551616.0.0") =
      [text "18446744073709551616", text "0", text "0"] := by decide +kernel
  have hwritten := (h.semantic.1 _ hparse).1
  rw [hnumbers] at hwritten
  exact absurd hwritten (by decide +kernel)

end RuntimeRegistry
