import RuntimeRegistry.Lib.Comparison
import RuntimeRegistry.Printing
/-!
# The order of versions

`compare` places a key against a key: three numbers, and the identifiers of the
prerelease up to the first empty one, a release above all prereleases. It is therefore a
total preorder whatever the texts hold. By the rules of precedence the key is the same
with the numbers themselves, where the code has them modulo 2^64.
-/
open Lib

namespace RuntimeRegistry

/-! ## Identifiers -/

/-- An identifier in its place: an empty one below numbers, numbers below other texts. -/
abbrev Weight := WithBot (Lex (ℤ ⊕ List ℕ))

/-- The place of an identifier, for a way to read numbers. -/
def weigh (number : Text → ℤ) (i : Text) : Weight :=
  if i = [] then ⊥
  else if i.all isDigit then ((toLex (.inl (number i)) : Lex (ℤ ⊕ List ℕ)) : Weight)
  else ((toLex (.inr (i.map UInt8.toNat)) : Lex (ℤ ⊕ List ℕ)) : Weight)

/-- As the code reads them. -/
def weight (i : Text) : Weight := weigh (fun i => (identifierNumber i).toInt) i

theorem compareText_eq (a b : Text) : compareText a b = threeWay (a.map UInt8.toNat) (b.map UInt8.toNat) := by
  induction a generalizing b with
  | nil =>
    cases b with
    | nil => rw [compareText, threeWay_self]
    | cons d b => rw [compareText, List.map_nil, List.map_cons, threeWay_nil_cons]
  | cons c a ih =>
    cases b with
    | nil => rw [compareText, List.map_nil, List.map_cons, threeWay_cons_nil]
    | cons d b =>
      rw [compareText, List.map_cons, List.map_cons, threeWay_cons, ih]
      simp only [UInt8.lt_iff_toNat_lt]
      obtain ⟨h, h1⟩ | ⟨h, _⟩ | ⟨h, h1⟩ := threeWay_cases c.toNat d.toNat
      · rw [if_pos h, h1, if_neg (by decide)]
      · simp [h]
      · rw [if_neg h.asymm, if_pos h, h1, if_neg (by decide)]

/-- What one round finds of two identifiers that are not empty. -/
def compareIdentifier (a b : Text) : Int :=
  if a.all isDigit && b.all isDigit then
    if identifierNumber a = identifierNumber b then 0
    else if identifierNumber a < identifierNumber b then -1 else 1
  else if a.all isDigit != b.all isDigit then (if a.all isDigit then -1 else 1)
  else compareText a b

theorem compareIdentifiers_cons {a b : Text} (as bs : List Text) (ha : a ≠ []) (hb : b ≠ []) :
    compareIdentifiers (a :: as) (b :: bs) =
      if compareIdentifier a b = 0 then compareIdentifiers as bs else compareIdentifier a b := by
  rw [compareIdentifiers, if_neg (fun h => ha h.1), if_neg ha, if_neg hb]
  rfl

theorem threeWay_toInt (m n : Int64) :
    threeWay m.toInt n.toInt = if m = n then 0 else if m < n then -1 else 1 := by
  obtain ⟨h, h1⟩ | ⟨h, h1⟩ | ⟨h, h1⟩ := threeWay_cases m.toInt n.toInt
  · have hne : m ≠ n := by rintro rfl; exact lt_irrefl _ h
    rw [h1, if_neg hne, if_pos (Int64.lt_iff_toInt_lt.2 h)]
  · rw [h1, if_pos (Int64.toInt_inj.1 h)]
  · have hne : m ≠ n := by rintro rfl; exact lt_irrefl _ h
    rw [h1, if_neg hne, if_neg (by rw [Int64.lt_iff_toInt_lt]; exact h.asymm)]

theorem compareIdentifier_eq {a b : Text} (ha : a ≠ []) (hb : b ≠ []) :
    compareIdentifier a b = threeWay (weight a) (weight b) := by
  rw [compareIdentifier, weight, weight, weigh, weigh, if_neg ha, if_neg hb]
  cases a.all isDigit <;> cases b.all isDigit <;>
    simp only [Bool.false_eq_true, if_false, if_true, Bool.and_self, Bool.and_false, Bool.false_and, bne_self_eq_false,
      Bool.true_bne, Bool.false_bne, Bool.not_false, threeWay_withBot]
  · rw [threeWay_inr, compareText_eq]
  · exact (threeWay_inr_inl _ _).symm
  · exact (threeWay_inl_inr _ _).symm
  · rw [threeWay_inl, threeWay_toInt]

/-! ## Lists of identifiers -/

/-- The identifiers up to the first empty one: no round looks behind it. -/
def untilEmpty : List Text → List Text
  | [] => []
  | i :: is => if i = [] then [[]] else i :: untilEmpty is

theorem weight_nil : weight [] = ⊥ := rfl

theorem weight_pos {i : Text} (hi : i ≠ []) : ⊥ < weight i := by
  rw [weight, weigh, if_neg hi]
  split_ifs <;> exact WithBot.bot_lt_coe _

/-- The loop places the identifiers that count against each other. -/
theorem compareIdentifiers_eq (as bs : List Text) :
    compareIdentifiers as bs = threeWay ((untilEmpty as).map weight) ((untilEmpty bs).map weight) := by
  induction as generalizing bs with
  | nil =>
    rcases bs with _ | ⟨b, bs⟩
    · rw [compareIdentifiers, threeWay_self]
    · rw [compareIdentifiers, untilEmpty, untilEmpty]
      split_ifs <;> exact (threeWay_nil_cons _ _).symm
  | cons a as ih =>
    rcases bs with _ | ⟨b, bs⟩
    · rw [compareIdentifiers, untilEmpty, untilEmpty]
      split_ifs <;> exact (threeWay_cons_nil _ _).symm
    by_cases ha : a = [] <;> by_cases hb : b = []
    · rw [compareIdentifiers, if_pos ⟨ha, hb⟩, untilEmpty, untilEmpty, if_pos ha, if_pos hb, threeWay_self]
    · rw [compareIdentifiers, if_neg (fun h => hb h.2), if_pos ha, untilEmpty, untilEmpty, if_pos ha, if_neg hb,
        List.map_cons, List.map_cons, threeWay_cons, weight_nil, threeWay_of_lt (weight_pos hb), if_neg (by decide)]
    · rw [compareIdentifiers, if_neg (fun h => ha h.1), if_neg ha, if_pos hb, untilEmpty, untilEmpty, if_neg ha, if_pos hb,
        List.map_cons, List.map_cons, threeWay_cons, weight_nil, threeWay_of_gt (weight_pos ha), if_neg (by decide)]
    · rw [compareIdentifiers_cons as bs ha hb, compareIdentifier_eq ha hb, ih, untilEmpty, untilEmpty, if_neg ha,
        if_neg hb, List.map_cons, List.map_cons, threeWay_cons]

/-! ## Versions -/

/-- Three numbers, and a prerelease or, above them all, none. -/
abbrev VersionKey := ℤ ×ₗ ℤ ×ₗ ℤ ×ₗ WithTop (List Weight)

namespace SemanticVersion

/-- The place of a version, for a way to place its identifiers. -/
def place (identifiers : List Text → List Weight) (v : SemanticVersion) : VersionKey :=
  toLex (v.major.toInt, toLex (v.minor.toInt, toLex (v.patch.toInt,
    if v.prerelease = [] then ⊤ else ((identifiers (dotIdentifiers v.prerelease) : List Weight) : WithTop (List Weight)))))

/-- What `compare` sees of a version. -/
def key (v : SemanticVersion) : VersionKey := v.place fun ids => (untilEmpty ids).map weight

theorem threeWay_component {m n : Int64} {c d : ℤ} (h : c = d) :
    (if m ≠ n then (if m < n then -1 else 1) else c) =
      if threeWay m.toInt n.toInt = 0 then d else threeWay m.toInt n.toInt := by
  simp only [threeWay_eq_zero, Int64.toInt_inj]
  by_cases heq : m = n
  · rw [if_neg (not_not.2 heq), if_pos heq, h]
  · rw [if_pos heq, if_neg heq, threeWay_toInt, if_neg heq]

/-- A release stands above every prerelease. -/
theorem threeWay_prerelease (p q : Text) (x y : List Weight) :
    threeWay (if p = [] then ⊤ else (x : WithTop (List Weight))) (if q = [] then ⊤ else (y : WithTop (List Weight))) =
      if p = [] ∧ q = [] then 0 else if q = [] then -1 else if p = [] then 1 else threeWay x y := by
  by_cases hp : p = [] <;> by_cases hq : q = []
  · simp [hp, hq]
  · simp [hp, hq, threeWay_top_coe]
  · simp [hp, hq, threeWay_coe_top]
  · simp [hp, hq, threeWay_withTop]

theorem compare_key (a b : SemanticVersion) : a.compare b = threeWay a.key b.key := by
  rw [key, key, place, place, threeWay_pair, threeWay_pair, threeWay_pair, threeWay_prerelease, compare,
    compareIdentifiers_eq]
  exact threeWay_component (threeWay_component (threeWay_component rfl))

end SemanticVersion

/-! ## The loop -/

/-- `prerelease.find('.', i)` and what it cuts off, or all that is left. -/
def identifierAt (s : Text) (i : ℕ) : Text :=
  match find '.'.toUInt8 s i with
  | none => s.drop i
  | some d => (s.drop i).take (d - i)

/-- One round of `while (true)`: the answer, or the cursors of the next round. -/
def compareRound (a b : Text) (ia ib : ℕ) : Int ⊕ ℕ × ℕ :=
  let A := identifierAt a ia
  let B := identifierAt b ib
  if A = [] ∧ B = [] then .inl 0
  else if A = [] then .inl (-1)
  else if B = [] then .inl 1
  else if compareIdentifier A B ≠ 0 then .inl (compareIdentifier A B)
  else
    match find '.'.toUInt8 a ia, find '.'.toUInt8 b ib with
    | none, none => .inl 0
    | none, some _ => .inl (-1)
    | some _, none => .inl 1
    | some da, some db => .inr (da + 1, db + 1)

/-- So many rounds of the loop. -/
def compareLoop (a b : Text) : ℕ → ℕ → ℕ → Option Int
  | 0, _, _ => none
  | n + 1, ia, ib =>
    match compareRound a b ia ib with
    | .inl c => some c
    | .inr (ia, ib) => compareLoop a b n ia ib

/-- The cursor stands before the identifiers of what is left. -/
theorem identifierAt_cases (s : Text) (i : ℕ) :
    (find '.'.toUInt8 s i = none ∧ dotIdentifiers (s.drop i) = [identifierAt s i]) ∨
      ∃ d, find '.'.toUInt8 s i = some d ∧
        dotIdentifiers (s.drop i) = identifierAt s i :: dotIdentifiers (s.drop (d + 1)) := by
  obtain ⟨hnot, hnone⟩ | ⟨a, b, hs, ha, hsome⟩ := find_cases '.'.toUInt8 s i
  · exact .inl ⟨hnone, by rw [dotIdentifiers_of_not_mem hnot, identifierAt, hnone]⟩
  · have hb : s.drop (i + a.length + 1) = b := by
      rw [add_assoc, ← List.drop_drop, hs, ← List.drop_drop, List.drop_left, List.drop_one, List.tail_cons]
    have hat : identifierAt s i = a := by
      simp only [identifierAt, hsome, hs, Nat.add_sub_cancel_left, List.take_left]
    exact .inr ⟨_, hsome, by rw [hs, dotIdentifiers_append ha, hb, hat]⟩

theorem identifierAt_cons (s : Text) (i : ℕ) : ∃ is, dotIdentifiers (s.drop i) = identifierAt s i :: is := by
  obtain ⟨_, h⟩ | ⟨_, _, h⟩ := identifierAt_cases s i
  · exact ⟨_, h⟩
  · exact ⟨_, h⟩

/-- A round takes an identifier from either side, so the loop ends within as many rounds
as there are identifiers, with the answer of `compareIdentifiers`. -/
theorem compareLoop_eq (a b : Text) (n ia ib : ℕ) (hn : (dotIdentifiers (a.drop ia)).length ≤ n) :
    compareLoop a b n ia ib = some (compareIdentifiers (dotIdentifiers (a.drop ia)) (dotIdentifiers (b.drop ib))) := by
  induction n generalizing ia ib with
  | zero => exact absurd (List.length_eq_zero_iff.1 (Nat.le_zero.1 hn)) (dotIdentifiers_ne_nil _)
  | succ n ih =>
    obtain ⟨as, has⟩ := identifierAt_cons a ia
    obtain ⟨bs, hbs⟩ := identifierAt_cons b ib
    rw [compareLoop, compareRound]
    by_cases hA : identifierAt a ia = []
    · by_cases hB : identifierAt b ib = [] <;> simp [has, hbs, hA, hB, compareIdentifiers]
    by_cases hB : identifierAt b ib = []
    · simp [has, hbs, hA, hB, compareIdentifiers]
    rw [has, hbs, compareIdentifiers_cons as bs hA hB]
    by_cases hc : compareIdentifier (identifierAt a ia) (identifierAt b ib) = 0
    · obtain ⟨hda, hlast⟩ | ⟨da, hda, hrest⟩ := identifierAt_cases a ia <;>
        obtain ⟨hdb, hlast'⟩ | ⟨db, hdb, hrest'⟩ := identifierAt_cases b ib
      · obtain rfl : as = [] := (List.cons.inj (has.symm.trans hlast)).2
        obtain rfl : bs = [] := (List.cons.inj (hbs.symm.trans hlast')).2
        simp [hA, hB, hc, hda, hdb, compareIdentifiers]
      · obtain rfl : as = [] := (List.cons.inj (has.symm.trans hlast)).2
        obtain rfl := (List.cons.inj (hbs.symm.trans hrest')).2
        obtain ⟨i, is, hids⟩ := List.exists_cons_of_ne_nil (dotIdentifiers_ne_nil (b.drop (db + 1)))
        simp [hA, hB, hc, hda, hdb, hids, compareIdentifiers]
      · obtain rfl := (List.cons.inj (has.symm.trans hrest)).2
        obtain rfl : bs = [] := (List.cons.inj (hbs.symm.trans hlast')).2
        obtain ⟨i, is, hids⟩ := List.exists_cons_of_ne_nil (dotIdentifiers_ne_nil (a.drop (da + 1)))
        simp [hA, hB, hc, hda, hdb, hids, compareIdentifiers]
      · obtain rfl := (List.cons.inj (has.symm.trans hrest)).2
        obtain rfl := (List.cons.inj (hbs.symm.trans hrest')).2
        have hleft : (dotIdentifiers (a.drop (da + 1))).length ≤ n := by
          rw [has, List.length_cons] at hn
          omega
        simp [hA, hB, hc, hda, hdb, ih _ _ hleft]
    · simp [hA, hB, hc]

/-- `compare` is a total preorder on all versions, and its loop ends on all texts, with
the answer that `compare` returns. -/
theorem compare_preorder : Preorders SemanticVersion.compare ∧
    ∀ (a b : Text) (n : ℕ), (dotIdentifiers a).length ≤ n →
      compareLoop a b n 0 0 = some (compareIdentifiers (dotIdentifiers a) (dotIdentifiers b)) :=
  ⟨.of_key SemanticVersion.key SemanticVersion.compare_key, fun a b n hn => compareLoop_eq a b n 0 0 hn⟩

/-! ## The rules of precedence -/

/-- An identifier by the rules: numbers by their value. The rules know no empty
identifier, such as a dot at the end leaves; it stands below the others. -/
def rank (i : Text) : Weight := weigh (fun i => (Numeral.value i : ℤ)) i

/-- Precedence by the rules of semantic versioning. -/
def precedence (a b : SemanticVersion) : ℤ :=
  threeWay (a.place fun ids => ids.map rank) (b.place fun ids => ids.map rank)

/-- The value of a numeric identifier modulo 2^64, as a signed number. -/
def residue (i : Text) : ℤ := Int.bmod (Numeral.value i) (2 ^ 64)

def Numeric (i : Text) : Prop := i ≠ [] ∧ ∀ c ∈ i, isDigit c

/-- Where the identifiers first differ, they are not two numbers, or the identifiers
from there on, their numbers modulo 2^64, are in the order of the two. -/
def KeepsOrder : List Text → List Text → Prop
  | i :: is, j :: js =>
    (rank i = rank j → KeepsOrder is js) ∧
      (Numeric i → Numeric j →
        (Numeral.value i < Numeral.value j → (i :: is).map (weigh residue) < (j :: js).map (weigh residue)) ∧
          (Numeral.value j < Numeral.value i → (j :: js).map (weigh residue) < (i :: is).map (weigh residue)))
  | _, _ => True

theorem identifierNumber_toInt {i : Text} (h : ∀ c ∈ i, isDigit c) : (identifierNumber i).toInt = residue i := by
  have hstep : ∀ (ds : Text) (v : Int64) (n : ℕ), (∀ c ∈ ds, isDigit c) → v.toInt = Int.bmod n (2 ^ 64) →
      (ds.foldl (fun an c => an * 10 + (c - '0'.toUInt8).toUInt64.toInt64) v).toInt =
        Int.bmod (valueFrom n ds) (2 ^ 64) := by
    intro ds
    induction ds with
    | nil => intro v n _ hv; exact hv
    | cons c ds ih =>
      intro v n hds hv
      rw [List.forall_mem_cons] at hds
      rw [List.foldl_cons, valueFrom_cons]
      exact ih _ _ hds.2 (step_toInt hv hds.1)
  exact hstep i 0 0 h rfl

theorem weight_eq (i : Text) : weight i = weigh residue i := by
  rw [weight, weigh, weigh]
  by_cases hdigits : i.all isDigit
  · rw [identifierNumber_toInt (List.all_eq_true.1 hdigits)]
  · rw [if_neg hdigits, if_neg hdigits]

theorem weigh_numeric {number : Text → ℤ} {i : Text} (h : Numeric i) :
    weigh number i = ((toLex (.inl (number i)) : Lex (ℤ ⊕ List ℕ)) : Weight) := by
  rw [weigh, if_neg h.1, if_pos (List.all_eq_true.2 h.2)]

theorem weigh_text {number : Text → ℤ} {i : Text} (h : ¬ Numeric i) (hi : i ≠ []) :
    weigh number i = ((toLex (.inr (i.map UInt8.toNat)) : Lex (ℤ ⊕ List ℕ)) : Weight) := by
  rw [weigh, if_neg hi, if_neg fun hdigits => h ⟨hi, List.all_eq_true.1 hdigits⟩]

/-- How numbers are read shows where two of them meet, and nowhere else. -/
theorem threeWay_weigh {number number' : Text → ℤ} {i j : Text} (h : ¬ (Numeric i ∧ Numeric j)) :
    threeWay (weigh number i) (weigh number j) = threeWay (weigh number' i) (weigh number' j) := by
  have hnil : ∀ number : Text → ℤ, weigh number [] = ⊥ := fun _ => rfl
  have hpos : ∀ {number : Text → ℤ} {i : Text}, i ≠ [] → ⊥ < weigh number i := by
    intro number i hi
    rw [weigh, if_neg hi]
    split_ifs <;> exact WithBot.bot_lt_coe _
  by_cases hi : i = [] <;> by_cases hj : j = []
  · rw [hi, hj, threeWay_self, threeWay_self]
  · rw [hi, hnil, hnil, threeWay_of_lt (hpos hj), threeWay_of_lt (hpos hj)]
  · rw [hj, hnil, hnil, threeWay_of_gt (hpos hi), threeWay_of_gt (hpos hi)]
  · by_cases hni : Numeric i
    · have hnj : ¬ Numeric j := fun hnj => h ⟨hni, hnj⟩
      rw [weigh_numeric hni, weigh_numeric hni, weigh_text hnj hj, weigh_text hnj hj, threeWay_withBot, threeWay_withBot,
        threeWay_inl_inr, threeWay_inl_inr]
    · by_cases hnj : Numeric j
      · rw [weigh_text hni hi, weigh_text hni hi, weigh_numeric hnj, weigh_numeric hnj, threeWay_withBot,
          threeWay_withBot, threeWay_inr_inl, threeWay_inr_inl]
      · rw [weigh_text hni hi, weigh_text hni hi, weigh_text hnj hj, weigh_text hnj hj]

/-- The residues give the order of the values if and only if the lists keep it. -/
theorem keepsOrder_iff (is js : List Text) :
    threeWay (is.map (weigh residue)) (js.map (weigh residue)) = threeWay (is.map rank) (js.map rank) ↔
      KeepsOrder is js := by
  induction is generalizing js with
  | nil =>
    rcases js with _ | ⟨j, js⟩
    · exact iff_of_true ((threeWay_self _).trans (threeWay_self _).symm) trivial
    · exact iff_of_true ((threeWay_nil_cons _ _).trans (threeWay_nil_cons _ _).symm) trivial
  | cons i is ih =>
    rcases js with _ | ⟨j, js⟩
    · exact iff_of_true ((threeWay_cons_nil _ _).trans (threeWay_cons_nil _ _).symm) trivial
    rw [KeepsOrder]
    by_cases hnum : Numeric i ∧ Numeric j
    · have hrank : threeWay (rank i) (rank j) = threeWay (Numeral.value i : ℤ) (Numeral.value j) := by
        rw [rank, rank, weigh_numeric hnum.1, weigh_numeric hnum.2, threeWay_withBot, threeWay_inl]
      rw [List.map_cons (f := rank), List.map_cons (f := rank), threeWay_cons (rank i), hrank]
      obtain ⟨hlt, h1⟩ | ⟨heq, h0⟩ | ⟨hgt, h1⟩ := threeWay_cases (Numeral.value i : ℤ) (Numeral.value j)
      · have hne : rank i ≠ rank j := fun heq => by
          rw [← threeWay_eq_zero, hrank, h1] at heq
          cases heq
        have hvalue : Numeral.value i < Numeral.value j := Nat.cast_lt.1 hlt
        rw [h1, if_neg (by decide), threeWay_eq_neg_one]
        exact ⟨fun h => ⟨fun heq => absurd heq hne, fun _ _ => ⟨fun _ => h, fun hgt => absurd hvalue hgt.asymm⟩⟩,
          fun h => (h.2 hnum.1 hnum.2).1 hvalue⟩
      · have hvalue : Numeral.value i = Numeral.value j := Nat.cast_inj.1 heq
        have hsame : rank i = rank j := threeWay_eq_zero.1 (hrank.trans h0)
        have hresidue : threeWay (weigh residue i) (weigh residue j) = 0 := by
          have heq : residue i = residue j := congrArg (fun n : ℕ => Int.bmod n (2 ^ 64)) hvalue
          rw [weigh_numeric hnum.1, weigh_numeric hnum.2, heq, threeWay_self]
        rw [h0, if_pos rfl, List.map_cons, List.map_cons, threeWay_cons, if_pos hresidue, ih]
        exact ⟨fun h => ⟨fun _ => h, fun _ _ => ⟨fun hlt => absurd hvalue hlt.ne, fun hgt => absurd hvalue hgt.ne'⟩⟩,
          fun h => h.1 hsame⟩
      · have hne : rank i ≠ rank j := fun heq => by
          rw [← threeWay_eq_zero, hrank, h1] at heq
          cases heq
        have hvalue : Numeral.value j < Numeral.value i := Nat.cast_lt.1 hgt
        rw [h1, if_neg (by decide), threeWay_eq_one]
        exact ⟨fun h => ⟨fun heq => absurd heq hne, fun _ _ => ⟨fun hlt => absurd hvalue hlt.asymm, fun _ => h⟩⟩,
          fun h => (h.2 hnum.1 hnum.2).2 hvalue⟩
    · have hrank : threeWay (weigh residue i) (weigh residue j) = threeWay (rank i) (rank j) := threeWay_weigh hnum
      rw [List.map_cons, List.map_cons, List.map_cons, List.map_cons, threeWay_cons, threeWay_cons, hrank]
      by_cases hsame : rank i = rank j
      · rw [threeWay_eq_zero.2 hsame, if_pos rfl, if_pos rfl, ih]
        exact ⟨fun h => ⟨fun _ => h, fun hi hj => absurd ⟨hi, hj⟩ hnum⟩, fun h => h.1 hsame⟩
      · rw [if_neg (mt threeWay_eq_zero.1 hsame), if_neg (mt threeWay_eq_zero.1 hsame)]
        exact iff_of_true rfl ⟨fun heq => absurd heq hsame, fun hi hj => absurd ⟨hi, hj⟩ hnum⟩

/-- In a checked text, nothing stands behind an empty identifier. -/
theorem untilEmpty_valid {ids : List Text} (h : validIdentifiers ids) : untilEmpty ids = ids := by
  induction ids with
  | nil => rfl
  | cons i ids ih =>
    rw [untilEmpty]
    by_cases hlast : i = [] ∧ ids = []
    · rw [if_pos hlast.1, hlast.1, hlast.2]
    · rw [validIdentifiers.eq_3 i ids (by simpa using hlast), Bool.and_eq_true, SemanticVersion.valid_identifier_iff] at h
      rw [if_neg h.1.1.1, ih h.2]

theorem untilEmpty_checked {t : Text} (h : Checked t) : untilEmpty (dotIdentifiers t) = dotIdentifiers t := by
  rcases h with rfl | h
  · rfl
  · rw [valid_dot_identifiers, Bool.and_eq_true] at h
    exact untilEmpty_valid h.2

theorem keepsOrder_nil_left (js : List Text) : KeepsOrder [[]] js := by
  rcases js with _ | ⟨j, js⟩
  · trivial
  · exact ⟨fun _ => trivial, fun h => absurd rfl h.1⟩

theorem keepsOrder_nil_right (is : List Text) : KeepsOrder is [[]] := by
  rcases is with _ | ⟨i, is⟩
  · trivial
  · refine ⟨fun _ => ?_, fun _ h => absurd rfl h.1⟩
    cases is <;> trivial

namespace SemanticVersion

/-- Of two accepted texts that do not differ in a number, nor in that one is a release,
the identifiers keep their order; then `compare` answers by the rules, and only then. -/
theorem compare_precedence_iff {after after' : AfterOverflow} {s t : Text} {a b : SemanticVersion}
    (hs : parse after s = some a) (ht : parse after' t = some b) :
    a.compare b = precedence a b ↔
      (a.major = b.major → a.minor = b.minor → a.patch = b.patch →
        KeepsOrder (dotIdentifiers a.prerelease) (dotIdentifiers b.prerelease)) := by
  have hweight : weight = weigh residue := funext weight_eq
  rw [compare_key, precedence, key, key, place, place, place, place, untilEmpty_checked (parse_checked hs).1,
    untilEmpty_checked (parse_checked ht).1, hweight]
  simp only [threeWay_pair, threeWay_prerelease, threeWay_eq_zero, Int64.toInt_inj]
  by_cases hmajor : a.major = b.major
  · by_cases hminor : a.minor = b.minor
    · by_cases hpatch : a.patch = b.patch
      · simp only [hmajor, hminor, hpatch, if_true, forall_const]
        by_cases ha : a.prerelease = []
        · rw [ha]
          exact iff_of_true (by split_ifs <;> simp_all) (keepsOrder_nil_left _)
        · by_cases hb : b.prerelease = []
          · rw [hb]
            exact iff_of_true (by split_ifs <;> simp_all) (keepsOrder_nil_right _)
          · rw [if_neg (fun h => ha h.1), if_neg hb, if_neg ha, if_neg (fun h => ha h.1), if_neg hb, if_neg ha]
            exact keepsOrder_iff _ _
      · exact iff_of_true (by simp [hpatch]) fun _ _ h => absurd h hpatch
    · exact iff_of_true (by simp [hminor]) fun _ h => absurd h hminor
  · exact iff_of_true (by simp [hmajor]) fun h => absurd h hmajor

/-- Two versions with prereleases of small numbers and of a text. -/
theorem compare_precedence_sample : compare ⟨1, 0, 0, text "rc.9", []⟩ ⟨1, 0, 0, text "rc.10", text "b"⟩ =
    precedence ⟨1, 0, 0, text "rc.9", []⟩ ⟨1, 0, 0, text "rc.10", text "b"⟩ := by
  have hs : parse (fun _ => none) (text "1.0.0-rc.9") = some ⟨1, 0, 0, text "rc.9", []⟩ := by decide +kernel
  have ht : parse (fun _ => none) (text "1.0.0-rc.10+b") = some ⟨1, 0, 0, text "rc.10", text "b"⟩ := by decide +kernel
  refine (compare_precedence_iff hs ht).2 fun _ _ _ => ?_
  have hids : dotIdentifiers (text "rc.9") = [text "rc", text "9"] := by decide
  have hids' : dotIdentifiers (text "rc.10") = [text "rc", text "10"] := by decide
  simp only [hids, hids']
  refine ⟨fun _ => ⟨fun _ => trivial, fun h9 h10 => ⟨fun _ => ?_, fun h => absurd h (by decide)⟩⟩, fun h => ?_⟩
  · rw [List.map_cons, List.map_cons, weigh_numeric h9, weigh_numeric h10]
    exact List.cons_lt_cons_iff.2 (.inl (WithBot.coe_lt_coe.2 (Sum.Lex.inl_lt_inl_iff.2 (by decide +kernel))))
  · exact absurd (h.2 _ List.mem_cons_self) (by decide)

/-- 2^64 counts as less than 1. -/
theorem compare_wrapped :
    parse (fun _ => none) (text "1.0.0-18446744073709551616") = some ⟨1, 0, 0, text "18446744073709551616", []⟩ ∧
    parse (fun _ => none) (text "1.0.0-1") = some ⟨1, 0, 0, text "1", []⟩ ∧
    compare ⟨1, 0, 0, text "18446744073709551616", []⟩ ⟨1, 0, 0, text "1", []⟩ ≠
      precedence ⟨1, 0, 0, text "18446744073709551616", []⟩ ⟨1, 0, 0, text "1", []⟩ := by
  have hcompare : compare ⟨1, 0, 0, text "18446744073709551616", []⟩ ⟨1, 0, 0, text "1", []⟩ = -1 := by decide +kernel
  have hlarge : Numeric (text "18446744073709551616") := ⟨by decide, by decide +kernel⟩
  have hone : Numeric (text "1") := ⟨by decide, by decide +kernel⟩
  have hvalue : (Numeral.value (text "1") : ℤ) < Numeral.value (text "18446744073709551616") := by decide +kernel
  have hrank : rank (text "1") < rank (text "18446744073709551616") := by
    refine lt_of_eq_of_lt (weigh_numeric hone) (lt_of_lt_of_eq ?_ (weigh_numeric hlarge).symm)
    exact WithBot.coe_lt_coe.2 (Sum.Lex.inl_lt_inl_iff.2 hvalue)
  have hids : dotIdentifiers (text "18446744073709551616") = [text "18446744073709551616"] := by decide +kernel
  have hids' : dotIdentifiers (text "1") = [text "1"] := by decide
  refine ⟨by decide +kernel, by decide +kernel, ?_⟩
  rw [hcompare, precedence, place, place, threeWay_pair, threeWay_pair, threeWay_pair, threeWay_prerelease]
  simp only [threeWay_self, if_true, hids, hids', List.map_cons, threeWay_cons, threeWay_of_gt hrank]
  decide

end SemanticVersion

end RuntimeRegistry
