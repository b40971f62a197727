import Mathlib
/-!
# Three-way comparisons

A comparison answers below zero, zero or above zero. One that answers as a linear
order places two keys is a total preorder, whatever the keys forget. Keys of several
parts are compared part by part, the first difference deciding.
-/

namespace Lib

section
variable {α β : Type} [LinearOrder α] [LinearOrder β]

/-- The place of the first against the second. -/
def threeWay (a b : α) : ℤ := if a < b then -1 else if b < a then 1 else 0

theorem threeWay_of_lt {a b : α} (h : a < b) : threeWay a b = -1 := if_pos h

theorem threeWay_of_gt {a b : α} (h : b < a) : threeWay a b = 1 := by
  rw [threeWay, if_neg h.asymm, if_pos h]

@[simp] theorem threeWay_self (a : α) : threeWay a a = 0 := by
  rw [threeWay, if_neg (lt_irrefl a), if_neg (lt_irrefl a)]

theorem threeWay_cases (a b : α) :
    (a < b ∧ threeWay a b = -1) ∨ (a = b ∧ threeWay a b = 0) ∨ (b < a ∧ threeWay a b = 1) := by
  rcases lt_trichotomy a b with h | rfl | h
  · exact .inl ⟨h, threeWay_of_lt h⟩
  · exact .inr (.inl ⟨rfl, threeWay_self a⟩)
  · exact .inr (.inr ⟨h, threeWay_of_gt h⟩)

theorem threeWay_eq_zero {a b : α} : threeWay a b = 0 ↔ a = b := by
  constructor
  · intro h
    obtain ⟨_, h1⟩ | ⟨heq, _⟩ | ⟨_, h1⟩ := threeWay_cases a b
    · omega
    · exact heq
    · omega
  · rintro rfl
    exact threeWay_self a

theorem threeWay_eq_neg_one {a b : α} : threeWay a b = -1 ↔ a < b := by
  obtain ⟨h, h1⟩ | ⟨rfl, h0⟩ | ⟨h, h1⟩ := threeWay_cases a b
  · exact iff_of_true h1 h
  · exact iff_of_false (by omega) (lt_irrefl a)
  · exact iff_of_false (by omega) h.asymm

theorem threeWay_eq_one {a b : α} : threeWay a b = 1 ↔ b < a := by
  obtain ⟨h, h1⟩ | ⟨rfl, h0⟩ | ⟨h, h1⟩ := threeWay_cases a b
  · exact iff_of_false (by omega) h.asymm
  · exact iff_of_false (by omega) (lt_irrefl a)
  · exact iff_of_true h1 h

theorem threeWay_nonpos {a b : α} : threeWay a b ≤ 0 ↔ a ≤ b := by
  obtain ⟨hlt, h1⟩ | ⟨rfl, h0⟩ | ⟨hgt, h1⟩ := threeWay_cases a b
  · exact iff_of_true (by omega) hlt.le
  · exact iff_of_true (by omega) le_rfl
  · exact iff_of_false (by omega) hgt.not_ge

theorem threeWay_swap (a b : α) : threeWay a b = -threeWay b a := by
  obtain ⟨h, h1⟩ | ⟨rfl, h0⟩ | ⟨h, h1⟩ := threeWay_cases a b
  · rw [h1, threeWay_of_gt h]
  · rw [h0, neg_zero]
  · rw [h1, threeWay_of_lt h]
    rfl

theorem threeWay_congr {a b : α} {x y : β} (hlt : a < b ↔ x < y) (hgt : b < a ↔ y < x) :
    threeWay a b = threeWay x y := by
  simp only [threeWay, hlt, hgt]

/-- A key that keeps the order keeps the comparison. -/
theorem threeWay_map {f : α → β} (hf : StrictMono f) (a b : α) : threeWay (f a) (f b) = threeWay a b :=
  threeWay_congr hf.lt_iff_lt hf.lt_iff_lt

/-! ## Keys of several parts -/

theorem threeWay_pair (a b : α) (x y : β) :
    threeWay (toLex (a, x)) (toLex (b, y)) = if threeWay a b = 0 then threeWay x y else threeWay a b := by
  obtain ⟨h, h1⟩ | ⟨rfl, h0⟩ | ⟨h, h1⟩ := threeWay_cases a b
  · rw [h1, if_neg (by decide), threeWay_of_lt (Prod.Lex.toLex_lt_toLex.2 (.inl h))]
  · rw [if_pos h0]
    apply threeWay_congr <;> simp [Prod.Lex.toLex_lt_toLex]
  · rw [h1, if_neg (by decide), threeWay_of_gt (Prod.Lex.toLex_lt_toLex.2 (.inl h))]

theorem threeWay_cons (a b : α) (as bs : List α) :
    threeWay (a :: as) (b :: bs) = if threeWay a b = 0 then threeWay as bs else threeWay a b := by
  obtain ⟨h, h1⟩ | ⟨rfl, h0⟩ | ⟨h, h1⟩ := threeWay_cases a b
  · rw [h1, if_neg (by decide), threeWay_of_lt (List.cons_lt_cons_iff.2 (.inl h))]
  · rw [if_pos h0]
    apply threeWay_congr <;> simp
  · rw [h1, if_neg (by decide), threeWay_of_gt (List.cons_lt_cons_iff.2 (.inl h))]

/-- A list that goes on is above the one that ends. -/
theorem threeWay_nil_cons (b : α) (bs : List α) : threeWay [] (b :: bs) = -1 := threeWay_of_lt (List.nil_lt_cons b bs)

theorem threeWay_cons_nil (a : α) (as : List α) : threeWay (a :: as) [] = 1 := threeWay_of_gt (List.nil_lt_cons a as)

theorem threeWay_withBot (a b : α) : threeWay (a : WithBot α) (b : WithBot α) = threeWay a b :=
  threeWay_map WithBot.coe_strictMono a b

theorem threeWay_withTop (a b : α) : threeWay (a : WithTop α) (b : WithTop α) = threeWay a b :=
  threeWay_map WithTop.coe_strictMono a b

theorem threeWay_coe_top (a : α) : threeWay (a : WithTop α) ⊤ = -1 := threeWay_of_lt (WithTop.coe_lt_top a)

theorem threeWay_top_coe (a : α) : threeWay ⊤ (a : WithTop α) = 1 := threeWay_of_gt (WithTop.coe_lt_top a)

theorem threeWay_inl (a b : α) : threeWay (toLex (.inl a) : Lex (α ⊕ β)) (toLex (.inl b)) = threeWay a b :=
  threeWay_congr Sum.Lex.inl_lt_inl_iff Sum.Lex.inl_lt_inl_iff

theorem threeWay_inr (x y : β) : threeWay (toLex (.inr x) : Lex (α ⊕ β)) (toLex (.inr y)) = threeWay x y :=
  threeWay_congr Sum.Lex.inr_lt_inr_iff Sum.Lex.inr_lt_inr_iff

theorem threeWay_inl_inr (a : α) (y : β) : threeWay (toLex (.inl a) : Lex (α ⊕ β)) (toLex (.inr y)) = -1 :=
  threeWay_of_lt (Sum.Lex.inl_lt_inr a y)

theorem threeWay_inr_inl (x : β) (b : α) : threeWay (toLex (.inr x) : Lex (α ⊕ β)) (toLex (.inl b)) = 1 :=
  threeWay_of_gt (Sum.Lex.inl_lt_inr b x)

end

/-! ## Total preorders -/

/-- The answers are those of a total preorder. -/
structure Preorders {γ : Type} (compare : γ → γ → ℤ) : Prop where
  self : ∀ a, compare a a = 0
  swap : ∀ a b, compare a b = -compare b a
  trans : ∀ a b c, compare a b ≤ 0 → compare b c ≤ 0 → compare a c ≤ 0

theorem Preorders.of_key {α γ : Type} [LinearOrder α] {compare : γ → γ → ℤ} (key : γ → α)
    (h : ∀ a b, compare a b = threeWay (key a) (key b)) : Preorders compare where
  self a := by rw [h, threeWay_self]
  swap a b := by rw [h, h, threeWay_swap]
  trans a b c hab hbc := by
    rw [h, threeWay_nonpos] at *
    exact hab.trans hbc

end Lib
