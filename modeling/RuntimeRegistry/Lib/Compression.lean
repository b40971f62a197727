import Mathlib.Data.List.Basic
import Mathlib.Data.List.Infix
/-!
# Iterated compression

A digest that folds a compression function over blocks. Two inputs with one digest
are the same input, or the last place where their two walks differ is a collision of
the compression function. That some collision exists is no news, for there are more
blocks than states: here it is computed from the two inputs.
-/

namespace Lib.Compression

variable {σ β : Type} (compress : σ → β → σ)

/-- The state before each block, with the block. -/
def walk : σ → List β → List (σ × β)
  | _, [] => []
  | h, b :: bs => (h, b) :: walk (compress h b) bs

/-- Two different arguments of the compression function with one value. -/
def Collides (p q : σ × β) : Prop := p ≠ q ∧ compress p.1 p.2 = compress q.1 q.2

/-- Where the two walks differ for the last time, counted from their ends. -/
def lastDifference [DecidableEq σ] [DecidableEq β] (h : σ) (xs ys : List β) : Option ((σ × β) × (σ × β)) :=
  ((walk compress h xs).reverse.zip (walk compress h ys).reverse).find? fun pq => pq.1 ≠ pq.2

variable {compress} {h : σ} {xs ys : List β}

theorem walk_append (h : σ) (xs : List β) (y : β) :
    walk compress h (xs ++ [y]) = walk compress h xs ++ [(xs.foldl compress h, y)] := by
  induction xs generalizing h with
  | nil => rfl
  | cons x xs ih => simp only [List.cons_append, walk, ih, List.foldl_cons]

@[simp] theorem walk_length (h : σ) (xs : List β) : (walk compress h xs).length = xs.length := by
  induction xs generalizing h with
  | nil => rfl
  | cons x xs ih => simp [walk, ih]

/-- Each block of a walk is one of the blocks. -/
theorem mem_walk {p : σ × β} (hp : p ∈ walk compress h xs) : p.2 ∈ xs := by
  induction xs generalizing h with
  | nil => cases hp
  | cons x xs ih =>
    rcases List.mem_cons.1 hp with rfl | hp
    · exact List.mem_cons_self
    · exact List.mem_cons_of_mem _ (ih hp)

section
variable [DecidableEq σ] [DecidableEq β]

/-- What the last blocks have to do with the last difference. -/
theorem lastDifference_append (h : σ) (xs ys : List β) (x y : β) :
    lastDifference compress h (xs ++ [x]) (ys ++ [y]) =
      if (xs.foldl compress h, x) = (ys.foldl compress h, y) then lastDifference compress h xs ys
      else some ((xs.foldl compress h, x), (ys.foldl compress h, y)) := by
  unfold lastDifference
  simp only [walk_append, List.reverse_append, List.reverse_singleton, List.singleton_append, List.zip_cons_cons,
    List.find?_cons]
  by_cases heq : (xs.foldl compress h, x) = (ys.foldl compress h, y) <;> simp [heq]

/-- Walks that end in one state collide, or one of them is the end of the other. -/
theorem collides_of_foldl_eq (heq : xs.foldl compress h = ys.foldl compress h) :
    (∃ p q, lastDifference compress h xs ys = some (p, q) ∧ Collides compress p q) ∨ xs <:+ ys ∨ ys <:+ xs := by
  induction xs using List.reverseRecOn generalizing ys with
  | nil => exact .inr (.inl List.nil_suffix)
  | append_singleton xs x ih =>
    rcases List.eq_nil_or_concat' ys with rfl | ⟨ys, y, rfl⟩
    · exact .inr (.inr List.nil_suffix)
    rw [List.foldl_append, List.foldl_append] at heq
    rw [lastDifference_append]
    by_cases hlast : (xs.foldl compress h, x) = (ys.foldl compress h, y)
    · obtain ⟨hstate, hblock⟩ := Prod.mk.inj hlast
      rw [if_pos hlast, hblock]
      have hends : ∀ {as bs : List β}, as <:+ bs → as ++ [y] <:+ bs ++ [y] :=
        fun ⟨cs, hcs⟩ => ⟨cs, by rw [← hcs, List.append_assoc]⟩
      exact (ih hstate).imp_right (Or.imp hends hends)
    · rw [if_neg hlast]
      exact .inl ⟨_, _, rfl, hlast, heq⟩

/-- A collision in the last place where two walks differ is one of the digests. -/
theorem foldl_eq_of_collides {p q : σ × β} (hd : lastDifference compress h xs ys = some (p, q))
    (hc : compress p.1 p.2 = compress q.1 q.2) : xs.foldl compress h = ys.foldl compress h := by
  rcases List.eq_nil_or_concat' xs with rfl | ⟨xs, x, rfl⟩
  · simp [lastDifference, walk] at hd
  rcases List.eq_nil_or_concat' ys with rfl | ⟨ys, y, rfl⟩
  · simp [lastDifference, walk] at hd
  rw [lastDifference_append] at hd
  simp only [List.foldl_append, List.foldl_cons, List.foldl_nil]
  split_ifs at hd with hlast
  · obtain ⟨hstate, hblock⟩ := Prod.mk.inj hlast
    rw [hstate, hblock]
  · obtain ⟨rfl, rfl⟩ := Prod.mk.inj (Option.some.inj hd)
    exact hc

/-- Neither input being the end of the other, equal digests are equal inputs or a collision. -/
theorem foldl_eq_iff (hfree : xs <:+ ys ∨ ys <:+ xs → xs = ys) : xs.foldl compress h = ys.foldl compress h ↔
    xs = ys ∨ ∃ p q, lastDifference compress h xs ys = some (p, q) ∧ Collides compress p q := by
  constructor
  · exact fun heq => (collides_of_foldl_eq heq).symm.imp_left hfree
  · rintro (rfl | ⟨p, q, hd, hc⟩)
    · rfl
    · exact foldl_eq_of_collides hd hc.2

/-- The two blocks of the last difference are blocks of the inputs. -/
theorem mem_of_lastDifference {p q : σ × β} (hd : lastDifference compress h xs ys = some (p, q)) : p.2 ∈ xs ∧ q.2 ∈ ys := by
  obtain ⟨hp, hq⟩ := List.of_mem_zip (List.mem_of_find?_eq_some hd)
  exact ⟨mem_walk (List.mem_reverse.1 hp), mem_walk (List.mem_reverse.1 hq)⟩

end

end Lib.Compression
