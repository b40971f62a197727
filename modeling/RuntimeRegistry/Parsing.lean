import RuntimeRegistry.Version
import RuntimeRegistry.Lib.Numerals
import RuntimeRegistry.Lib.Separators
/-!
# Reading versions

The two parsers and the two printers. A text is cut at the first `+`, at the first `-`
before it and at the dots before that, and what comes out is checked piece by piece.
`parse_u64` looks at its accumulator after it has overflowed, which is too late: the
language leaves open what an overflow does, so what comes after one is a parameter.
-/
open Lib

namespace RuntimeRegistry

/-! ## The code -/

/-- `c - '0'` -/
def digit (c : UInt8) : Int64 := (c - '0'.toUInt8).toUInt64.toInt64

/-- What reading numbers comes to: a value, a refusal, or a signed overflow, behind
which everything is open. -/
inductive Scan (α : Type)
  | value (a : α)
  | refused
  | undefined
deriving DecidableEq

def Scan.bind {α β : Type} : Scan α → (α → Scan β) → Scan β
  | .value a, f => f a
  | .refused, _ => .refused
  | .undefined, _ => .undefined

instance : Monad Scan where
  pure := .value
  bind := .bind

/-- The loop of `parse_u64`. -/
def accumulate (v : Int64) : Text → Scan Int64
  | [] => .value v
  | c :: s =>
    if !isDigit c then .refused
    else if 2 ^ 63 ≤ v.toInt * 10 + (digit c).toInt then .undefined
    -- the overflow guard
    else if v * 10 + digit c < 0 then .refused
    else accumulate (v * 10 + digit c) s

/-- The value of a whole string that is a non-negative decimal integer with no leading
zeros (except "0" itself). -/
def parse_u64 (s : Text) : Scan Int64 :=
  if s = [] then .refused
  else if 1 < s.length ∧ s.head? = some '0'.toUInt8 then .refused
  else accumulate 0 s

/-- The texts of numbers one after the other, up to the first that is refused. -/
def scanAll : List Text → Scan (List Int64)
  | [] => .value []
  | p :: ps => do
    let n ← parse_u64 p
    let ns ← scanAll ps
    return n :: ns

/-- What a compiled parser makes of number texts that overflow on the way. -/
abbrev AfterOverflow := List Text → Option (List Int64)

/-- The numbers of the texts, as a compiled parser has them. -/
def readNumbers (after : AfterOverflow) (ps : List Text) : Option (List Int64) :=
  match scanAll ps with
  | .value ns => some ns
  | .refused => none
  | .undefined => after ps

/-- `std::isalnum` in the C locale -/
def isalnum (c : UInt8) : Bool :=
  isDigit c || ('A'.toUInt8 ≤ c && c ≤ 'Z'.toUInt8) || ('a'.toUInt8 ≤ c && c ≤ 'z'.toUInt8)

def ident_char (c : UInt8) : Bool := isalnum c || c = '-'.toUInt8

/-- The checks of `valid_dot_identifiers` on one identifier. -/
def valid_identifier (id : Text) : Bool :=
  id ≠ [] && id.all ident_char && !(id.all isDigit && 1 < id.length && id.head? = some '0'.toUInt8)

/-- The loop of `valid_dot_identifiers` over the identifiers that are left. It ends
where nothing is left behind a dot. -/
def validIdentifiers : List Text → Bool
  | [] => true
  | [[]] => true
  | id :: ids => valid_identifier id && validIdentifiers ids

def valid_dot_identifiers (s : Text) : Bool := s ≠ [] && validIdentifiers (dotIdentifiers s)

/-- What stands before the first `sep`, and the checked identifiers behind it. -/
def identifiersBehind (sep : UInt8) (rest : Text) : Option (Text × Text) :=
  match find sep rest 0 with
  | none => some (rest, [])
  | some k => if valid_dot_identifiers (rest.drop (k + 1)) then some (rest.take k, rest.drop (k + 1)) else none

/-- The cuts at the two dots. -/
def cutNumbers (rest : Text) : Option (Text × Text × Text) :=
  match find '.'.toUInt8 rest 0 with
  | none => none
  | some dot1 =>
    match find '.'.toUInt8 rest (dot1 + 1) with
    | none => none  -- majors require patch
    | some dot2 =>
      if (find '.'.toUInt8 (rest.drop (dot2 + 1)) 0).isSome then none
      else some (rest.take dot1, (rest.drop (dot1 + 1)).take (dot2 - dot1 - 1), rest.drop (dot2 + 1))

namespace SemanticVersion

/-- The text as `parse` has cut it before it reads the numbers. -/
structure Parts where
  maj : Text
  min : Text
  pat : Text
  prerelease : Text
  build : Text
deriving DecidableEq

/-- The texts that are read as numbers: an empty patch is not. -/
def Parts.numbers (p : Parts) : List Text := if p.pat = [] then [p.maj, p.min] else [p.maj, p.min, p.pat]

def cut (s : Text) : Option Parts :=
  if s = [] then none
  else do
    let (rest, build) ← identifiersBehind '+'.toUInt8 s
    let (rest, prerelease) ← identifiersBehind '-'.toUInt8 rest
    let (maj, min, pat) ← cutNumbers rest
    some { maj, min, pat, prerelease, build }

def parse (after : AfterOverflow) (s : Text) : Option SemanticVersion := do
  let p ← cut s
  let ns ← readNumbers after p.numbers
  some { major := ns.getD 0 0, minor := ns.getD 1 0, patch := ns.getD 2 0, prerelease := p.prerelease, build := p.build }

end SemanticVersion

/-- `std::to_string` of a signed value. -/
def to_string_i64 (v : Int64) : Text :=
  if v < 0 then '-'.toUInt8 :: Numeral.write v.toInt.natAbs else Numeral.write v.toInt.natAbs

def SemanticVersion.str (v : SemanticVersion) : Text :=
  let out := to_string_i64 v.major ++ text "." ++ to_string_i64 v.minor ++ text "." ++ to_string_i64 v.patch
  let out := if v.prerelease ≠ [] then out ++ (text "-" ++ v.prerelease) else out
  if v.build ≠ [] then out ++ (text "+" ++ v.build) else out

def parse_version_components (after : AfterOverflow) (s : Text) : Option (Int64 × Int64 × Int64) :=
  if s = [] then none
  else if 3 < (dotIdentifiers s).length then none
  else (readNumbers after (dotIdentifiers s)).map fun ns => (ns.getD 0 0, ns.getD 1 0, ns.getD 2 0)

namespace StructuredVersion
variable {tag : VersionTag}

def parse (after : AfterOverflow) (s : Text) : Option (StructuredVersion tag) :=
  (parse_version_components after s).map fun (a, b, c) => ⟨a, b, c⟩

def str (v : StructuredVersion tag) : Text :=
  let out := to_string_i64 v.major ++ text "." ++ to_string_i64 v.minor
  if v.patch ≠ 0 then out ++ (text "." ++ to_string_i64 v.patch) else out

end StructuredVersion

/-! ## The accumulator -/

theorem isDigit_iff (c : UInt8) : isDigit c ↔ 48 ≤ c.toNat ∧ c.toNat ≤ 57 := Numeral.isDigit_iff c

theorem toInt64_toInt {x : UInt64} (h : x.toNat < 2 ^ 63) : x.toInt64.toInt = x.toNat :=
  BitVec.toInt_eq_toNat_of_lt (by
    have : 2 * x.toNat < 2 ^ 64 := by omega
    exact this)

theorem sub_zero_toNat {c : UInt8} (h : isDigit c) : (c - '0'.toUInt8).toUInt64.toNat = c.toNat - 48 := by
  have hrange := (isDigit_iff c).1 h
  have hzero : '0'.toUInt8.toNat = 48 := by decide
  rw [UInt8.toNat_toUInt64, UInt8.toNat_sub_of_le _ _ (UInt8.le_iff_toNat_le.2 (by omega)), hzero]

theorem digit_toInt {c : UInt8} (h : isDigit c) : (digit c).toInt = c.toNat - 48 := by
  have hrange := (isDigit_iff c).1 h
  have hlt : (c - '0'.toUInt8).toUInt64.toNat < 2 ^ 63 := by
    rw [sub_zero_toNat h]
    omega
  calc
    (digit c).toInt = ((c - '0'.toUInt8).toUInt64.toNat : ℤ) := toInt64_toInt hlt
    _ = ((c.toNat - 48 : ℕ) : ℤ) := by rw [sub_zero_toNat h]
    _ = c.toNat - 48 := Nat.cast_sub hrange.1

/-- The number that digits write behind those of `n`. -/
def valueFrom (n : ℕ) (ds : Text) : ℕ := ds.foldl (fun n c => 10 * n + (c.toNat - 48)) n

theorem valueFrom_cons (n : ℕ) (c : UInt8) (ds : Text) :
    valueFrom n (c :: ds) = valueFrom (10 * n + (c.toNat - 48)) ds := by
  rw [valueFrom, List.foldl_cons, valueFrom]

theorem le_valueFrom (n : ℕ) (ds : Text) : n ≤ valueFrom n ds := by
  induction ds generalizing n with
  | nil => exact le_rfl
  | cons c ds ih =>
    have := ih (10 * n + (c.toNat - 48))
    rw [valueFrom_cons]
    omega

/-- An accumulator that is right modulo 2^64 stays so. -/
theorem step_toInt {v : Int64} {n : ℕ} {c : UInt8} (hv : v.toInt = Int.bmod n (2 ^ 64)) (hc : isDigit c) :
    (v * 10 + digit c).toInt = Int.bmod (10 * n + (c.toNat - 48) : ℕ) (2 ^ 64) := by
  have hrange := (isDigit_iff c).1 hc
  have hten : (10 : Int64).toInt = 10 := by decide
  have hcast : ((10 * n + (c.toNat - 48) : ℕ) : ℤ) = n * 10 + (c.toNat - 48) := by omega
  rw [Int64.toInt_add, Int64.toInt_mul, hv, digit_toInt hc, hten, hcast, Int.bmod_mul_bmod, Int.bmod_add_bmod]

theorem bmod_small {n : ℕ} (h : n < 2 ^ 63) : Int.bmod n (2 ^ 64) = n := by
  rw [Int.bmod_eq_of_le] <;> omega

/-- Below 2^63 the accumulator holds the number. -/
theorem step_exact {v : Int64} {n : ℕ} {c : UInt8} (hv : v.toInt = n) (hc : isDigit c)
    (h : 10 * n + (c.toNat - 48) < 2 ^ 63) : (v * 10 + digit c).toInt = (10 * n + (c.toNat - 48) : ℕ) := by
  have hmod : v.toInt = Int.bmod n (2 ^ 64) := by rw [hv, bmod_small (by omega)]
  rw [step_toInt hmod hc, bmod_small h]

/-- The digits a text begins with. -/
def leading (s : Text) : Text := s.takeWhile isDigit

theorem leading_cons {c : UInt8} (hc : isDigit c) (s : Text) : leading (c :: s) = c :: leading s :=
  List.takeWhile_cons_of_pos hc

theorem leading_other {c : UInt8} (hc : ¬ isDigit c) (s : Text) : leading (c :: s) = [] :=
  List.takeWhile_cons_of_neg hc

theorem leading_digits {s : Text} (h : ∀ c ∈ s, isDigit c) : leading s = s := List.takeWhile_eq_self_iff.2 h

theorem accumulate_other {v : Int64} {c : UInt8} (hc : ¬ isDigit c) (s : Text) : accumulate v (c :: s) = .refused := by
  rw [accumulate, if_pos (by simpa using hc)]

/-- One digit: the sum overflows, or the accumulator holds it and the guard has nothing to do. -/
theorem accumulate_digit {v : Int64} {n : ℕ} {c : UInt8} (hv : v.toInt = n) (hc : isDigit c) (s : Text) :
    2 ^ 63 ≤ 10 * n + (c.toNat - 48) ∧ accumulate v (c :: s) = .undefined ∨
      10 * n + (c.toNat - 48) < 2 ^ 63 ∧ (v * 10 + digit c).toInt = (10 * n + (c.toNat - 48) : ℕ) ∧
        accumulate v (c :: s) = accumulate (v * 10 + digit c) s := by
  have hsum : v.toInt * 10 + (digit c).toInt = (10 * n + (c.toNat - 48) : ℕ) := by
    have hrange := (isDigit_iff c).1 hc
    rw [hv, digit_toInt hc]
    omega
  rw [accumulate, hc, hsum]
  simp only [Bool.not_true, Bool.false_eq_true, if_false]
  by_cases hroom : 10 * n + (c.toNat - 48) < 2 ^ 63
  · have hstep := step_exact hv hc hroom
    have hpos : ¬ v * 10 + digit c < 0 := by
      rw [Int64.lt_iff_toInt_lt, hstep]
      exact not_lt.2 (Int.natCast_nonneg _)
    rw [if_neg (by exact_mod_cast not_le.2 hroom), if_neg hpos]
    exact .inr ⟨hroom, hstep, rfl⟩
  · rw [if_pos (by exact_mod_cast not_lt.1 hroom)]
    exact .inl ⟨not_lt.1 hroom, rfl⟩

/-- The loop ends with a value on digits that write less than 2^63. -/
theorem accumulate_value {v w : Int64} {n : ℕ} {s : Text} (hv : v.toInt = n) (hn : n < 2 ^ 63) :
    accumulate v s = .value w ↔ (∀ c ∈ s, isDigit c) ∧ valueFrom n s < 2 ^ 63 ∧ w.toInt = valueFrom n s := by
  induction s generalizing v n with
  | nil =>
    have hsame : v = w ↔ w.toInt = n := by rw [← Int64.toInt_inj, hv, eq_comm]
    rw [accumulate, Scan.value.injEq, hsame]
    exact ⟨fun h => ⟨List.forall_mem_nil _, hn, h⟩, fun h => h.2.2⟩
  | cons c s ih =>
    rw [List.forall_mem_cons, valueFrom_cons]
    by_cases hc : isDigit c
    · rcases accumulate_digit hv hc s with ⟨hlarge, hscan⟩ | ⟨hroom, hstep, hscan⟩
      · have hle := le_valueFrom (10 * n + (c.toNat - 48)) s
        rw [hscan]
        exact iff_of_false (by simp) fun h => by omega
      · rw [hscan, ih hstep hroom, and_iff_right hc]
    · rw [accumulate_other hc]
      exact iff_of_false (by simp) fun h => hc h.1.1

/-- The loop overflows on leading digits that write 2^63 or more. -/
theorem accumulate_undefined {v : Int64} {n : ℕ} {s : Text} (hv : v.toInt = n) (hn : n < 2 ^ 63) :
    accumulate v s = .undefined ↔ 2 ^ 63 ≤ valueFrom n (leading s) := by
  induction s generalizing v n with
  | nil => exact iff_of_false (by simp [accumulate]) (not_le.2 hn)
  | cons c s ih =>
    by_cases hc : isDigit c
    · rw [leading_cons hc, valueFrom_cons]
      rcases accumulate_digit hv hc s with ⟨hlarge, hscan⟩ | ⟨hroom, hstep, hscan⟩
      · exact iff_of_true hscan (hlarge.trans (le_valueFrom _ _))
      · rw [hscan, ih hstep hroom]
    · rw [leading_other hc, accumulate_other hc]
      exact iff_of_false (by simp) (not_le.2 hn)

/-! ## Numbers -/

/-- A decimal integer with no leading zeros. -/
def IsNumber (s : Text) : Prop :=
  s ≠ [] ∧ (∀ c ∈ s, isDigit c) ∧ ¬ (1 < s.length ∧ s.head? = some '0'.toUInt8)

/-- The text begins with an idle zero, or with digits that write less than 2^63. -/
def Fits (p : Text) : Prop := (1 < p.length ∧ p.head? = some '0'.toUInt8) ∨ Numeral.value (leading p) < 2 ^ 63

/-- Every text up to the first that is no number fits. -/
def FitThrough : List Text → Prop
  | [] => True
  | p :: ps => Fits p ∧ (IsNumber p → FitThrough ps)

theorem IsNumber.fits_iff {p : Text} (h : IsNumber p) : Fits p ↔ Numeral.value p < 2 ^ 63 := by
  rw [Fits, leading_digits h.2.1, or_iff_right h.2.2]

theorem fitThrough_of_forall {ps : List Text} (h : ∀ p ∈ ps, Fits p) : FitThrough ps := by
  induction ps with
  | nil => trivial
  | cons p ps ih =>
    rw [List.forall_mem_cons] at h
    exact ⟨h.1, fun _ => ih h.2⟩

/-- A value is the number that is written. -/
theorem parse_u64_value {s : Text} {w : Int64} :
    parse_u64 s = .value w ↔ IsNumber s ∧ Numeral.value s < 2 ^ 63 ∧ w.toInt = Numeral.value s := by
  rw [parse_u64, IsNumber]
  by_cases hnil : s = []
  · simp [hnil]
  by_cases hzero : 1 < s.length ∧ s.head? = some '0'.toUInt8
  · simp [hzero]
  · rw [if_neg hnil, if_neg hzero, accumulate_value (n := 0) rfl (by decide)]
    simp only [hnil, hzero, ne_eq, not_false_eq_true, and_true, true_and]
    exact Iff.rfl

theorem parse_u64_undefined {s : Text} : parse_u64 s = .undefined ↔ ¬ Fits s := by
  rw [parse_u64, Fits]
  by_cases hnil : s = []
  · subst hnil
    simp [leading, Numeral.value]
  by_cases hzero : 1 < s.length ∧ s.head? = some '0'.toUInt8
  · simp [hzero]
  · rw [if_neg hnil, if_neg hzero, accumulate_undefined (n := 0) rfl (by decide), or_iff_right hzero, not_lt]
    exact Iff.rfl

theorem IsNumber.read {p : Text} (h : IsNumber p) (hfits : Fits p) : ∃ w, parse_u64 p = .value w := by
  have hlt := h.fits_iff.1 hfits
  exact ⟨Int64.ofNat (Numeral.value p), parse_u64_value.2 ⟨h, hlt, Int64.toInt_ofNat_of_lt hlt⟩⟩

section
variable {ps : List Text} {ns : List Int64} {after : AfterOverflow}

theorem scanAll_value : scanAll ps = .value ns ↔ List.Forall₂ (fun p n => parse_u64 p = .value n) ps ns := by
  induction ps generalizing ns with
  | nil => cases ns <;> simp [scanAll]
  | cons p ps ih =>
    rw [List.forall₂_cons_left_iff]
    rcases hp : parse_u64 p with n | _ | _ <;> simp only [scanAll, bind, hp, Scan.bind]
    · rcases hps : scanAll ps with ns' | _ | _
      · constructor
        · rintro ⟨rfl⟩
          exact ⟨n, ns', rfl, ih.1 hps, rfl⟩
        · rintro ⟨_, _, ⟨rfl⟩, hrest, rfl⟩
          rw [← ih, hps] at hrest
          cases hrest
          rfl
      all_goals
        refine iff_of_false (by simp) ?_
        rintro ⟨_, _, _, hrest, _⟩
        rw [← ih, hps] at hrest
        cases hrest
    all_goals simp

/-- Reading overflows at a text that does not fit, if all before it are numbers. -/
theorem scanAll_undefined : scanAll ps = .undefined ↔ ¬ FitThrough ps := by
  induction ps with
  | nil => simp [scanAll, FitThrough]
  | cons p ps ih =>
    have hfits : Fits p ↔ parse_u64 p ≠ .undefined := by rw [Ne, parse_u64_undefined, not_not]
    rw [FitThrough, hfits]
    rcases hp : parse_u64 p with n | _ | _ <;> simp only [scanAll, bind, hp, Scan.bind]
    · have hnumber := (parse_u64_value.1 hp).1
      rcases hps : scanAll ps <;> simp_all [pure]
    · have hnot : ¬ IsNumber p := by
        intro hnumber
        obtain ⟨w, hw⟩ := hnumber.read (not_not.1 fun hfits => by simp [parse_u64_undefined.2 hfits] at hp)
        rw [hp] at hw
        cases hw
      simp [hnot]
    · simp

theorem readNumbers_fit (h : FitThrough ps) : readNumbers after ps = some ns ↔ scanAll ps = .value ns := by
  have hdefined := scanAll_undefined.not.2 (not_not.2 h)
  rw [readNumbers]
  rcases hscan : scanAll ps <;> simp_all

theorem readNumbers_overflow (h : ¬ FitThrough ps) : readNumbers after ps = after ps := by
  rw [readNumbers, scanAll_undefined.2 h]

/-- Numbers that fit are read one by one. -/
theorem scanAll_numbers (h : FitThrough ps) (hnumbers : ∀ p ∈ ps, IsNumber p) : ∃ ns, scanAll ps = .value ns := by
  induction ps with
  | nil => exact ⟨[], rfl⟩
  | cons p ps ih =>
    rw [List.forall_mem_cons] at hnumbers
    obtain ⟨n, hn⟩ := hnumbers.1.read h.1
    obtain ⟨ns, hns⟩ := ih (h.2 hnumbers.1) hnumbers.2
    exact ⟨n :: ns, scanAll_value.2 (.cons hn (scanAll_value.1 hns))⟩

theorem scanAll_isNumber (h : scanAll ps = .value ns) : ∀ p ∈ ps, IsNumber p ∧ Numeral.value p < 2 ^ 63 := by
  rw [scanAll_value] at h
  induction h with
  | nil => intro p hp; cases hp
  | cons hn _ ih =>
    obtain ⟨hnumber, hlt, _⟩ := parse_u64_value.1 hn
    exact List.forall_mem_cons.2 ⟨⟨hnumber, hlt⟩, ih⟩

/-- The numbers that are read are those of the texts, zero where there is none. -/
theorem scanAll_exact (h : scanAll ps = .value ns) (i : ℕ) : (ns.getD i 0).toInt = Numeral.value (ps.getD i []) := by
  rw [scanAll_value] at h
  induction h generalizing i with
  | nil => rfl
  | cons hn _ ih =>
    cases i with
    | zero => exact (parse_u64_value.1 hn).2.2
    | succ i => exact ih i

end

/-! ## Cuts -/

section
variable {s t : Text}

theorem dotIdentifiers_of_not_mem (h : '.'.toUInt8 ∉ s) : dotIdentifiers s = [s] := by
  induction s with
  | nil => rfl
  | cons c s ih =>
    rw [List.mem_cons, not_or] at h
    rw [dotIdentifiers, if_neg (Ne.symm h.1), ih h.2]

theorem dotIdentifiers_append (h : '.'.toUInt8 ∉ s) :
    dotIdentifiers (s ++ '.'.toUInt8 :: t) = s :: dotIdentifiers t := by
  induction s with
  | nil => rw [List.nil_append, dotIdentifiers, if_pos rfl]
  | cons c s ih =>
    rw [List.mem_cons, not_or] at h
    rw [List.cons_append, dotIdentifiers, if_neg (Ne.symm h.1), ih h.2]

/-- Induction over the identifiers of a text. -/
theorem dot_induction {P : Text → Prop} (last : ∀ a, '.'.toUInt8 ∉ a → P a)
    (append : ∀ a b, '.'.toUInt8 ∉ a → P b → P (a ++ '.'.toUInt8 :: b)) (s : Text) : P s := by
  induction hn : s.length using Nat.strong_induction_on generalizing s with
  | _ n ih =>
    by_cases hdot : '.'.toUInt8 ∈ s
    · obtain ⟨a, b, rfl, ha⟩ := List.eq_append_cons_of_mem hdot
      refine append a b ha (ih b.length ?_ b rfl)
      simp only [List.length_append, List.length_cons] at hn
      omega
    · exact last s hdot

theorem dotIdentifiers_ne_nil (s : Text) : dotIdentifiers s ≠ [] := by
  induction s using dot_induction with
  | last a ha => rw [dotIdentifiers_of_not_mem ha]; exact List.cons_ne_nil _ _
  | append a b ha _ => rw [dotIdentifiers_append ha]; exact List.cons_ne_nil _ _

theorem mem_dotIdentifiers {c : UInt8} (h : c ∈ s) : c = '.'.toUInt8 ∨ ∃ id ∈ dotIdentifiers s, c ∈ id := by
  induction s using dot_induction with
  | last a ha =>
    rw [dotIdentifiers_of_not_mem ha]
    exact .inr ⟨a, List.mem_singleton_self a, h⟩
  | append a b ha ih =>
    rw [dotIdentifiers_append ha]
    rw [List.mem_append, List.mem_cons] at h
    rcases h with hc | rfl | hc
    · exact .inr ⟨a, List.mem_cons_self, hc⟩
    · exact .inl rfl
    · exact (ih hc).imp id fun ⟨i, hi, hmem⟩ => ⟨i, List.mem_cons_of_mem _ hi, hmem⟩

/-- A text behind its separator, if there is one. -/
def behind (sep : UInt8) (t : Text) : Text := if t = [] then [] else sep :: t

/-- No text, or one that `valid_dot_identifiers` passes. -/
def Checked (t : Text) : Prop := t = [] ∨ valid_dot_identifiers t

theorem identifiersBehind_eq_some {sep : UInt8} {rest ids : Text} :
    identifiersBehind sep s = some (rest, ids) ↔ s = rest ++ behind sep ids ∧ sep ∉ rest ∧ Checked ids := by
  constructor
  · intro h
    rw [identifiersBehind] at h
    split at h
    case h_1 hnone =>
      obtain ⟨rfl, rfl⟩ := Prod.mk.inj (Option.some.inj h)
      obtain ⟨hmem, _⟩ | ⟨a, b, _, _, hsome⟩ := find_cases sep s 0
      · exact ⟨by simp [behind], hmem, .inl rfl⟩
      · rw [hnone] at hsome
        cases hsome
    case h_2 k hk =>
      obtain ⟨hs, hsep⟩ := find_eq_some hk
      split_ifs at h with hvalid
      obtain ⟨rfl, rfl⟩ := Prod.mk.inj (Option.some.inj h)
      have hne : s.drop (k + 1) ≠ [] := by
        intro hnil
        rw [hnil] at hvalid
        cases hvalid
      rw [behind, if_neg hne]
      exact ⟨hs, hsep, .inr hvalid⟩
  · rintro ⟨rfl, hsep, hids⟩
    rw [identifiersBehind, behind]
    by_cases hnil : ids = []
    · rw [if_pos hnil, List.append_nil, find_none (by simpa using hsep), hnil]
    · have hvalid : valid_dot_identifiers ids := hids.resolve_left hnil
      rw [if_neg hnil, find_some (i := 0) (a := rest) (b := ids) rfl hsep]
      simp [hvalid]

theorem cutNumbers_eq_some {maj min pat : Text} :
    cutNumbers s = some (maj, min, pat) ↔
      s = maj ++ '.'.toUInt8 :: (min ++ '.'.toUInt8 :: pat) ∧
        '.'.toUInt8 ∉ maj ∧ '.'.toUInt8 ∉ min ∧ '.'.toUInt8 ∉ pat := by
  constructor
  · intro h
    rw [cutNumbers] at h
    split at h
    · cases h
    case h_2 dot1 hdot1 =>
      split at h
      · cases h
      case h_2 dot2 hdot2 =>
        split_ifs at h with hdot3
        obtain ⟨hs, hmaj⟩ := find_eq_some hdot1
        obtain ⟨_, hnone⟩ | ⟨a, b, hrest, ha, hsome⟩ := find_cases '.'.toUInt8 s (dot1 + 1)
        · rw [hdot2] at hnone
          cases hnone
        obtain rfl : dot2 = dot1 + 1 + a.length := Option.some.inj (hdot2.symm.trans hsome)
        have hmin : (s.drop (dot1 + 1)).take (dot1 + 1 + a.length - dot1 - 1) = a := by
          rw [hrest, show dot1 + 1 + a.length - dot1 - 1 = a.length by omega, List.take_left]
        have hpat : s.drop (dot1 + 1 + a.length + 1) = b := by
          rw [add_assoc, ← List.drop_drop, hrest, ← List.drop_drop, List.drop_left, List.drop_one, List.tail_cons]
        have hlast : '.'.toUInt8 ∉ b := by
          obtain ⟨hmem, _⟩ | ⟨_, _, _, _, hsome⟩ := find_cases '.'.toUInt8 b 0
          · exact hmem
          · exact absurd (hpat ▸ hsome ▸ rfl) hdot3
        obtain ⟨rfl, hrest2⟩ := Prod.mk.inj (Option.some.inj h)
        obtain ⟨rfl, rfl⟩ := Prod.mk.inj hrest2
        rw [hmin, hpat, ← hrest]
        exact ⟨hs, hmaj, ha, hlast⟩
  · rintro ⟨rfl, hmaj, hmin, hpat⟩
    have hdot1 := find_some (i := 0) (a := maj) (b := min ++ '.'.toUInt8 :: pat) rfl hmaj
    have hdrop : (maj ++ '.'.toUInt8 :: (min ++ '.'.toUInt8 :: pat)).drop (maj.length + 1) =
        min ++ '.'.toUInt8 :: pat := by simp
    have hdot2 := find_some hdrop hmin
    have hlast : (maj ++ '.'.toUInt8 :: (min ++ '.'.toUInt8 :: pat)).drop (maj.length + 1 + min.length + 1) = pat := by
      rw [add_assoc, ← List.drop_drop, hdrop]
      simp
    have hlen : maj.length + 1 + min.length - maj.length - 1 = min.length := by omega
    rw [zero_add] at hdot1
    simp only [cutNumbers, hdot1, hdot2, hlast, hdrop, hlen, find_none (i := 0) hpat, Option.isSome_none,
      Bool.false_eq_true, if_false, List.take_left]

theorem validIdentifiers_chars {ids : List Text} (h : validIdentifiers ids) :
    ∀ i ∈ ids, ∀ c ∈ i, ident_char c := by
  induction ids with
  | nil => intro i hi; cases hi
  | cons i ids ih =>
    by_cases hlast : i = [] ∧ ids = []
    · obtain ⟨rfl, rfl⟩ := hlast
      intro j hj c hc
      rw [List.mem_singleton] at hj
      rw [hj] at hc
      cases hc
    · have hsplit : valid_identifier i ∧ validIdentifiers ids := by
        rw [validIdentifiers.eq_3 i ids (by simpa using hlast), Bool.and_eq_true] at h
        exact h
      rw [List.forall_mem_cons]
      simp only [valid_identifier, Bool.and_eq_true, List.all_eq_true] at hsplit
      exact ⟨hsplit.1.1.2, ih hsplit.2⟩

theorem Checked.chars (h : Checked t) {c : UInt8} (hc : c ∈ t) : ident_char c ∨ c = '.'.toUInt8 := by
  rcases h with rfl | h
  · cases hc
  · rw [valid_dot_identifiers, Bool.and_eq_true] at h
    rcases mem_dotIdentifiers hc with hdot | ⟨i, hi, hmem⟩
    · exact .inr hdot
    · exact .inl (validIdentifiers_chars h.2 i hi c hmem)

theorem Checked.plus_not_mem (h : Checked t) : '+'.toUInt8 ∉ t := by
  intro hc
  exact absurd (h.chars hc) (by decide)

namespace SemanticVersion

/-- None of the separators. -/
def Plain (t : Text) : Prop := '.'.toUInt8 ∉ t ∧ '-'.toUInt8 ∉ t ∧ '+'.toUInt8 ∉ t

theorem plain_of_digits (h : ∀ c ∈ t, isDigit c) : Plain t := by
  refine ⟨fun hc => ?_, fun hc => ?_, fun hc => ?_⟩ <;> exact absurd (h _ hc) (by decide)

theorem dash_not_mem {m n k : Text} (hm : Plain m) (hn : Plain n) (hk : Plain k) :
    '-'.toUInt8 ∉ m ++ '.'.toUInt8 :: (n ++ '.'.toUInt8 :: k) := by
  simp only [List.mem_append, List.mem_cons, not_or]
  exact ⟨hm.2.1, by decide, hn.2.1, by decide, hk.2.1⟩

theorem plus_not_mem {m n k r : Text} (hm : Plain m) (hn : Plain n) (hk : Plain k) (hr : '+'.toUInt8 ∉ r) :
    '+'.toUInt8 ∉ m ++ '.'.toUInt8 :: (n ++ '.'.toUInt8 :: k) ++ behind '-'.toUInt8 r := by
  simp only [behind, List.mem_append, List.mem_cons, not_or]
  refine ⟨⟨hm.2.2, by decide, hn.2.2, by decide, hk.2.2⟩, ?_⟩
  split_ifs
  · exact List.not_mem_nil
  · exact List.not_mem_cons_of_ne_of_not_mem (by decide) hr

namespace Parts

/-- The text that is cut into the parts. -/
def text (p : Parts) : Text :=
  p.maj ++ '.'.toUInt8 :: (p.min ++ '.'.toUInt8 :: (p.pat ++ (behind '-'.toUInt8 p.prerelease ++
    behind '+'.toUInt8 p.build)))

/-- The parts into which the text is cut. -/
structure Cut (p : Parts) : Prop where
  maj : Plain p.maj
  min : Plain p.min
  pat : Plain p.pat
  prerelease : Checked p.prerelease
  build : Checked p.build

end Parts

theorem cut_eq_some {p : Parts} : cut s = some p ↔ s = p.text ∧ p.Cut := by
  obtain ⟨maj, min, pat, prerelease, build⟩ := p
  rw [cut]
  constructor
  · intro h
    split_ifs at h with hnil
    simp only [bind, Option.bind_eq_some_iff, Prod.exists, Option.some_inj] at h
    obtain ⟨rest, build', h1, rest', prerelease', h2, maj', min', pat', h3, h4⟩ := h
    cases h4
    obtain ⟨rfl, hplus, hbuild⟩ := identifiersBehind_eq_some.1 h1
    obtain ⟨rfl, hdash, hprerelease⟩ := identifiersBehind_eq_some.1 h2
    obtain ⟨rfl, hmaj, hmin, hpat⟩ := cutNumbers_eq_some.1 h3
    simp only [List.mem_append, List.mem_cons, not_or] at hplus hdash
    exact ⟨by simp [Parts.text], ⟨hmaj, hdash.1, hplus.1.1⟩, ⟨hmin, hdash.2.2.1, hplus.1.2.2.1⟩,
      ⟨hpat, hdash.2.2.2.2, hplus.1.2.2.2.2⟩, hprerelease, hbuild⟩
  · rintro ⟨rfl, hmaj, hmin, hpat, hprerelease, hbuild⟩
    have hnil : Parts.text ⟨maj, min, pat, prerelease, build⟩ ≠ [] := by simp [Parts.text]
    have h1 : identifiersBehind '+'.toUInt8 (Parts.text ⟨maj, min, pat, prerelease, build⟩) =
        some (maj ++ '.'.toUInt8 :: (min ++ '.'.toUInt8 :: pat) ++ behind '-'.toUInt8 prerelease, build) :=
      identifiersBehind_eq_some.2
        ⟨by simp [Parts.text], plus_not_mem hmaj hmin hpat (Checked.plus_not_mem hprerelease), hbuild⟩
    have h2 : identifiersBehind '-'.toUInt8
        (maj ++ '.'.toUInt8 :: (min ++ '.'.toUInt8 :: pat) ++ behind '-'.toUInt8 prerelease) =
          some (maj ++ '.'.toUInt8 :: (min ++ '.'.toUInt8 :: pat), prerelease) :=
      identifiersBehind_eq_some.2 ⟨rfl, dash_not_mem hmaj hmin hpat, hprerelease⟩
    have h3 : cutNumbers (maj ++ '.'.toUInt8 :: (min ++ '.'.toUInt8 :: pat)) = some (maj, min, pat) :=
      cutNumbers_eq_some.2 ⟨rfl, hmaj.1, hmin.1, hpat.1⟩
    simp only [if_neg hnil, h1, h2, h3, bind, Option.bind_some]

/-- The version that the parts and the numbers make. -/
def Parts.version (p : Parts) (ns : List Int64) : SemanticVersion :=
  { major := ns.getD 0 0, minor := ns.getD 1 0, patch := ns.getD 2 0, prerelease := p.prerelease, build := p.build }

theorem parse_eq_some {after : AfterOverflow} {v : SemanticVersion} : parse after s = some v ↔
    ∃ p, cut s = some p ∧ ∃ ns, readNumbers after p.numbers = some ns ∧ p.version ns = v := by
  simp only [parse, bind, Option.bind_eq_some_iff, Option.some_inj, Parts.version]

end SemanticVersion

end

end RuntimeRegistry
