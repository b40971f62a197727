import Mathlib
/-!
# Scoped enumerations and the integers cast into them

A value of a scoped enumeration is usually one of its enumerators, but a cast
from an integer also makes values that no enumerator names. `Enum ε` holds
both kinds, each byte standing for exactly one value: `toByte` and `ofByte`
are inverse to each other.
-/

namespace Lib

/-- The enumerators of `ε` in declaration order, numbered from 0. -/
class Enumerators (ε : Type) where
  all : List ε
  nodup : all.Nodup
  mem_all : ∀ e, e ∈ all
  small : all.length ≤ 256

/-- A value of the enumeration `ε`: an enumerator, or a byte past the last one. -/
inductive Enum (ε : Type) [Enumerators ε] where
  | named (e : ε)
  | unnamed (b : UInt8) (h : (Enumerators.all (ε := ε)).length ≤ b.toNat)
deriving DecidableEq

namespace Enum
variable {ε : Type} [Enumerators ε]

instance : Coe ε (Enum ε) := ⟨.named⟩

/-- The value is one of the enumerators. -/
def Named (x : Enum ε) : Prop := ∃ e : ε, x = e

theorem named_named (e : ε) : Named (e : Enum ε) := ⟨e, rfl⟩

instance (x : Enum ε) : Decidable x.Named :=
  match x with
  | .named e => isTrue ⟨e, rfl⟩
  | .unnamed _ _ => isFalse (by rintro ⟨e, h⟩; cases h)

variable [DecidableEq ε]

/-- `static_cast<std::uint8_t>(x)` -/
def toByte : Enum ε → UInt8
  | .named e => UInt8.ofNat (Enumerators.all.idxOf e)
  | .unnamed b _ => b

/-- `static_cast<ε>(b)` -/
def ofByte (b : UInt8) : Enum ε :=
  if h : b.toNat < (Enumerators.all (ε := ε)).length then .named (Enumerators.all[b.toNat])
  else .unnamed b (by omega)

theorem toByte_toNat (e : ε) : (toByte (.named e)).toNat = Enumerators.all.idxOf e := by
  have hlt : Enumerators.all.idxOf e < (Enumerators.all (ε := ε)).length :=
    List.idxOf_lt_length_of_mem (Enumerators.mem_all e)
  have hs := Enumerators.small (ε := ε)
  simp only [toByte, UInt8.toNat_ofNat']
  omega

@[simp] theorem ofByte_toByte (x : Enum ε) : ofByte x.toByte = x := by
  cases x with
  | named e =>
    have hlt : Enumerators.all.idxOf e < (Enumerators.all (ε := ε)).length :=
      List.idxOf_lt_length_of_mem (Enumerators.mem_all e)
    simp only [ofByte, toByte_toNat, hlt, dite_true, List.getElem_idxOf]
  | unnamed b h => simp [ofByte, toByte, Nat.not_lt.2 h]

@[simp] theorem toByte_ofByte (b : UInt8) : (ofByte b : Enum ε).toByte = b := by
  unfold ofByte
  split
  · rename_i h
    apply UInt8.toNat_inj.1
    rw [toByte_toNat, Enumerators.nodup.idxOf_getElem]
  · rfl

theorem toByte_inj {x y : Enum ε} : x.toByte = y.toByte ↔ x = y :=
  ⟨fun h => by rw [← ofByte_toByte x, h, ofByte_toByte], fun h => h ▸ rfl⟩

/-! ## Enumerations as keys -/

instance : Ord (Enum ε) := ⟨fun x y => compare x.toByte y.toByte⟩

instance : Std.TransOrd (Enum ε) where
  eq_swap {x y} := @Std.OrientedCmp.eq_swap UInt8 compare _ x.toByte y.toByte
  isLE_trans {x y z} := @Std.TransCmp.isLE_trans UInt8 compare _ x.toByte y.toByte z.toByte

instance : Std.LawfulEqOrd (Enum ε) where
  eq_of_compare h := toByte_inj.1 (Std.LawfulEqOrd.eq_of_compare (α := UInt8) h)

end Enum

end Lib
