import RuntimeRegistry.Grammar
/-!
# Writing versions

What `str` writes is read back by `parse`: the numbers are written without leading
zeros, and the checked texts hold no separator that would cut them elsewhere. A number
that has overflowed may be negative, and then its sign is taken for a separator.
-/
open Lib

namespace RuntimeRegistry

/-! ## Numbers -/

theorem valueFrom_lt {ds : Text} (n : ℕ) (h : ∀ c ∈ ds, isDigit c) : valueFrom n ds < (n + 1) * 10 ^ ds.length := by
  induction ds generalizing n with
  | nil => simp [valueFrom]
  | cons c ds ih =>
    rw [List.forall_mem_cons] at h
    have hrange := (isDigit_iff c).1 h.1
    calc
      valueFrom n (c :: ds) = valueFrom (10 * n + (c.toNat - 48)) ds := valueFrom_cons n c ds
      _ < (10 * n + (c.toNat - 48) + 1) * 10 ^ ds.length := ih _ h.2
      _ ≤ (n + 1) * 10 * 10 ^ ds.length := Nat.mul_le_mul_right _ (by omega)
      _ = (n + 1) * 10 ^ (c :: ds).length := by rw [List.length_cons, pow_succ', mul_assoc]

/-- A number is written without a leading zero. -/
theorem isNumber_write (n : ℕ) : IsNumber (Numeral.write n) := by
  refine ⟨Numeral.write_ne_nil n, Numeral.isDigit_write n, ?_⟩
  rintro ⟨hlen, hhead⟩
  obtain ⟨ds, hds⟩ : ∃ ds, Numeral.write n = '0'.toUInt8 :: ds := List.head?_eq_some_iff.1 hhead
  have hdigits : ∀ c ∈ ds, isDigit c := fun c hc => Numeral.isDigit_write n c (hds ▸ List.mem_cons_of_mem _ hc)
  have hvalue : n = valueFrom 0 ds := by
    rw [← Numeral.value_write n, hds]
    exact valueFrom_cons 0 _ ds
  have hlt : n < 10 ^ ds.length := by
    rw [hvalue]
    simpa using valueFrom_lt 0 hdigits
  rw [hds, List.length_cons] at hlen
  have hshort := Numeral.length_write (by omega) hlt
  rw [hds, List.length_cons] at hshort
  omega

section
variable {v : Int64}

theorem to_string_i64_nonneg (hv : 0 ≤ v.toInt) : to_string_i64 v = Numeral.write v.toInt.natAbs := by
  rw [to_string_i64, if_neg]
  rw [Int64.lt_iff_toInt_lt]
  exact not_lt.2 hv

theorem parse_to_string (hv : 0 ≤ v.toInt) : parse_u64 (to_string_i64 v) = .value v := by
  have hlt : v.toInt < 2 ^ 63 := Int64.toInt_lt v
  rw [to_string_i64_nonneg hv, parse_u64_value, Numeral.value_write]
  exact ⟨isNumber_write _, by omega, by omega⟩

theorem to_string_isNumber (hv : 0 ≤ v.toInt) : IsNumber (to_string_i64 v) :=
  (parse_u64_value.1 (parse_to_string hv)).1

theorem to_string_fits (hv : 0 ≤ v.toInt) : Fits (to_string_i64 v) :=
  (to_string_isNumber hv).fits_iff.2 (parse_u64_value.1 (parse_to_string hv)).2.1

end

/-! ## Versions -/

section
variable {after after' : AfterOverflow}

/-- Numbers that are not negative are written and read back. -/
theorem read_written {ns : List Int64} (h : ∀ n ∈ ns, 0 ≤ n.toInt) :
    readNumbers after (ns.map to_string_i64) = some ns := by
  have hfit : FitThrough (ns.map to_string_i64) := by
    refine fitThrough_of_forall fun p hp => ?_
    obtain ⟨n, hn, rfl⟩ := List.mem_map.1 hp
    exact to_string_fits (h n hn)
  rw [readNumbers_fit hfit, scanAll_value, List.forall₂_map_left_iff, List.forall₂_same]
  exact fun n hn => parse_to_string (h n hn)

namespace SemanticVersion

/-- What `str` writes, as parts. -/
def written (v : SemanticVersion) : Parts :=
  ⟨to_string_i64 v.major, to_string_i64 v.minor, to_string_i64 v.patch, v.prerelease, v.build⟩

theorem str_eq (v : SemanticVersion) : v.str = v.written.text := by
  have hdot : text "." = ['.'.toUInt8] := by decide
  have hdash : text "-" = ['-'.toUInt8] := by decide
  have hplus : text "+" = ['+'.toUInt8] := by decide
  simp only [str, written, Parts.text, behind, hdot, hdash, hplus]
  split_ifs <;> simp_all

/-- What `parse` returns has checked texts. -/
theorem parse_checked {s : Text} {v : SemanticVersion} (h : parse after s = some v) :
    Checked v.prerelease ∧ Checked v.build := by
  obtain ⟨p, hcut, ns, _, rfl⟩ := parse_eq_some.1 h
  obtain ⟨_, hp⟩ := cut_eq_some.1 hcut
  exact ⟨hp.prerelease, hp.build⟩

/-- What `parse` returns for numbers that fit has no negative one. -/
theorem parse_nonneg {s : Text} {v : SemanticVersion} (hfit : FitThrough (numbers s)) (h : parse after s = some v) :
    0 ≤ v.major.toInt ∧ 0 ≤ v.minor.toInt ∧ 0 ≤ v.patch.toInt := by
  obtain ⟨p, hcut, ns, hns, rfl⟩ := parse_eq_some.1 h
  rw [numbers_of_cut hcut] at hfit
  have hexact := scanAll_exact ((readNumbers_fit hfit).1 hns)
  have hnonneg : ∀ i, 0 ≤ (ns.getD i 0).toInt := fun i => by
    rw [hexact]
    exact Int.natCast_nonneg _
  exact ⟨hnonneg 0, hnonneg 1, hnonneg 2⟩

theorem parse_str {s : Text} {v : SemanticVersion} (hfit : FitThrough (numbers s)) (h : parse after s = some v) :
    parse after' v.str = some v := by
  obtain ⟨hmajor, hminor, hpatch⟩ := parse_nonneg hfit h
  obtain ⟨hpre, hbuild⟩ := parse_checked h
  have hcut : v.written.Cut := ⟨plain_of_digits (to_string_isNumber hmajor).2.1,
    plain_of_digits (to_string_isNumber hminor).2.1, plain_of_digits (to_string_isNumber hpatch).2.1, hpre, hbuild⟩
  have hnumbers : v.written.numbers = [v.major, v.minor, v.patch].map to_string_i64 := by
    have hpat : v.written.pat ≠ [] := (to_string_isNumber hpatch).1
    rw [Parts.numbers, if_neg hpat]
    rfl
  rw [str_eq, parse_of_cut hcut, hnumbers]
  refine ⟨_, read_written ?_, rfl⟩
  exact List.forall_mem_cons.2 ⟨hmajor, List.forall_mem_cons.2 ⟨hminor, List.forall_mem_singleton.2 hpatch⟩⟩

/-- A text that begins with a dash is not cut. -/
theorem cut_dash (t : Text) : cut ('-'.toUInt8 :: t) = none := by
  refine Option.eq_none_iff_forall_ne_some.2 fun p hcut => ?_
  obtain ⟨htext, hp⟩ := cut_eq_some.1 hcut
  rw [Parts.text] at htext
  rcases hmaj : p.maj with _ | ⟨c, maj⟩ <;> rw [hmaj] at htext
  · exact absurd (List.cons.inj htext).1 (by decide)
  · have hplain := hp.maj.2.1
    rw [hmaj] at hplain
    exact hplain ((List.cons.inj htext).1 ▸ List.mem_cons_self)

/-- A version with a negative major number is written with a dash in front. -/
theorem parse_str_negative {v : SemanticVersion} (hv : v.major.toInt = -1) : parse after v.str = none := by
  obtain ⟨t, ht⟩ : ∃ t, v.str = '-'.toUInt8 :: t := by
    have hneg : v.major < 0 := by
      rw [Int64.lt_iff_toInt_lt, hv]
      decide
    rw [str_eq, Parts.text, written, to_string_i64, if_pos hneg]
    exact ⟨_, rfl⟩
  rw [ht, parse, cut_dash]
  rfl

end SemanticVersion

namespace StructuredVersion
variable {tag : VersionTag} {v : StructuredVersion tag}

theorem parse_str (hmajor : 0 ≤ v.major.toInt) (hminor : 0 ≤ v.minor.toInt) (hpatch : 0 ≤ v.patch.toInt) :
    parse after v.str = some v := by
  have hnot : ∀ {n : Int64}, 0 ≤ n.toInt → '.'.toUInt8 ∉ to_string_i64 n := fun hn =>
    (SemanticVersion.plain_of_digits (to_string_isNumber hn).2.1).1
  have hdot : text "." = ['.'.toUInt8] := by decide
  -- the patch number is written unless it is zero
  obtain ⟨ns, hparts, hns, hv⟩ : ∃ ns : List Int64, dotIdentifiers v.str = ns.map to_string_i64 ∧ ns.length ≤ 3 ∧
      (∀ n ∈ ns, 0 ≤ n.toInt) ∧ (v.major, v.minor, v.patch) = (ns.getD 0 0, ns.getD 1 0, ns.getD 2 0) := by
    rw [str, hdot]
    by_cases hzero : v.patch = 0
    · refine ⟨[v.major, v.minor], ?_, by simp, ?_, by rw [hzero]; rfl⟩
      · rw [hzero, if_neg (not_not.2 rfl), List.append_assoc, List.singleton_append, dotIdentifiers_append (hnot hmajor),
          dotIdentifiers_of_not_mem (hnot hminor)]
        rfl
      · exact List.forall_mem_cons.2 ⟨hmajor, List.forall_mem_singleton.2 hminor⟩
    · refine ⟨[v.major, v.minor, v.patch], ?_, by simp, ?_, rfl⟩
      · rw [if_pos hzero, List.append_assoc, List.append_assoc, List.singleton_append, dotIdentifiers_append (hnot hmajor),
          List.singleton_append, dotIdentifiers_append (hnot hminor), dotIdentifiers_of_not_mem (hnot hpatch)]
        rfl
      · exact List.forall_mem_cons.2 ⟨hmajor, List.forall_mem_cons.2 ⟨hminor, List.forall_mem_singleton.2 hpatch⟩⟩
  have hne : v.str ≠ [] := by
    rw [str, hdot]
    split_ifs <;> simp
  rw [parse_eq_some, hparts, List.length_map]
  exact ⟨⟨hne, hns⟩, ns, read_written hv.1, hv.2⟩

end StructuredVersion

/-- Printing then parsing is the identity on the versions that `parse` returns for a text,
however an overflow comes out, if and only if none of its numbers overflows; and always on
the structured versions without a negative number. -/
theorem printed_parsed_iff (s : Text) :
    ((∀ after v, SemanticVersion.parse after s = some v → SemanticVersion.parse after v.str = some v) ↔
      FitThrough (SemanticVersion.numbers s)) ∧
    ∀ (after : AfterOverflow) (tag : VersionTag) (v : StructuredVersion tag),
      0 ≤ v.major.toInt → 0 ≤ v.minor.toInt → 0 ≤ v.patch.toInt → StructuredVersion.parse after v.str = some v := by
  refine ⟨⟨fun h => ?_, fun hfit after v hv => SemanticVersion.parse_str hfit hv⟩, fun _ _ _ => StructuredVersion.parse_str⟩
  by_contra hover
  obtain ⟨after, v, hv, hmajor⟩ := SemanticVersion.overflow_misleads hover
  have hback := h after v hv
  rw [SemanticVersion.parse_str_negative hmajor] at hback
  cases hback

/-- A version without a patch number is printed with a zero and read back. -/
theorem printed_parsed_iff_sample :
    SemanticVersion.parse (fun _ => none) (SemanticVersion.str ⟨1, 2, 0, text "rc-1.x", text "b"⟩) =
        some ⟨1, 2, 0, text "rc-1.x", text "b"⟩ ∧
      StructuredVersion.parse (fun _ => none) (StructuredVersion.str (⟨1, 2, 0⟩ : ApiVersion)) =
        some (⟨1, 2, 0⟩ : ApiVersion) := by
  have hfit : FitThrough (SemanticVersion.numbers (text "1.2.-rc-1.x+b")) := by
    have hnumbers : SemanticVersion.numbers (text "1.2.-rc-1.x+b") = [text "1", text "2"] := by decide +kernel
    rw [hnumbers]
    exact fitThrough_of_forall (List.forall_mem_cons.2 ⟨.inr (by decide), List.forall_mem_singleton.2 (.inr (by decide))⟩)
  exact ⟨(printed_parsed_iff (text "1.2.-rc-1.x+b")).1.2 hfit _ _ (by decide +kernel),
    (printed_parsed_iff (text "1.2.-rc-1.x+b")).2 _ .ApiTag ⟨1, 2, 0⟩ (by decide) (by decide) (by decide)⟩

/-- Without the guard 2^63 is read as a negative number, which is printed with a dash. -/
theorem printed_wrapped : ¬ ∀ v, SemanticVersion.parse (wrapped false) (text "9223372036854775808.0.0") = some v →
    SemanticVersion.parse (wrapped false) v.str = some v := by
  intro h
  have hparse : SemanticVersion.parse (wrapped false) (text "9223372036854775808.0.0") =
      some { major := Int64.minValue } := by decide +kernel
  exact absurd (h _ hparse) (by decide +kernel)

end

end RuntimeRegistry
