import RuntimeRegistry.Lib.Tables
/-!
# Tables with a journal of their records

A table holds one record for each key, and a journal the records that were set down
before. A version of a key is kept as long as the table or the journal shows it, so a
record can take the place of another only where the journal has the version it
replaces.
-/

namespace Lib

open Std

/-- A table of records, and the records that were set down. -/
structure Journal (κ ρ : Type) [Ord κ] where
  table : ExtTreeMap κ ρ
  past : List ρ

namespace Journal

variable {κ ρ γ : Type} [Ord κ] {key : ρ → κ} {version : ρ → γ} {J J' J'' : Journal κ ρ}

/-- The journal has a record of the key and the version. -/
def Past (key : ρ → κ) (version : ρ → γ) (J : Journal κ ρ) (k : κ) (g : γ) : Prop := ∃ x ∈ J.past, key x = k ∧ version x = g

theorem Past.mono {k : κ} {g : γ} (h : J.Past key version k g) (hpast : J.past ⊆ J'.past) : J'.Past key version k g := by
  obtain ⟨x, hx, hsame⟩ := h
  exact ⟨x, hpast hx, hsame⟩

variable [TransOrd κ]

/-- The table holds a record of the version under the key. -/
def Present (key : ρ → κ) (version : ρ → γ) (J : Journal κ ρ) (k : κ) (g : γ) : Prop :=
  ∃ x, J.table[k]? = some x ∧ key x = k ∧ version x = g

/-- The version of the key is shown by the table or by the journal. -/
def Kept (key : ρ → κ) (version : ρ → γ) (J : Journal κ ρ) (k : κ) (g : γ) : Prop :=
  J.Present key version k g ∨ J.Past key version k g

/-- What was kept is kept. -/
def Keeps (key : ρ → κ) (version : ρ → γ) (J J' : Journal κ ρ) : Prop :=
  ∀ k g, J.Kept key version k g → J'.Kept key version k g

namespace Keeps

theorem refl (J : Journal κ ρ) : J.Keeps key version J := fun _ _ h => h

theorem trans (h : J.Keeps key version J') (h' : J'.Keeps key version J'') : J.Keeps key version J'' :=
  fun k g hk => h' k g (h k g hk)

/-- Records that are edited in place keep their keys and their versions. -/
theorem edit (htable : ∀ (k : κ) (x : ρ), J.table[k]? = some x →
      ∃ y, J'.table[k]? = some y ∧ key y = key x ∧ version y = version x)
    (hpast : J.past ⊆ J'.past) : J.Keeps key version J' := by
  rintro k g (⟨x, hx, hkey, hversion⟩ | hold)
  · obtain ⟨y, hy, hk, hv⟩ := htable k x hx
    exact .inl ⟨y, hy, hk.trans hkey, hv.trans hversion⟩
  · exact .inr (hold.mono hpast)

variable [LawfulEqOrd κ] {x current : ρ}

/-- A record stored under its key keeps what the journal shows of the record that it
replaces, and the other keys. -/
theorem store (hpast : J.past ⊆ J'.past) (htable : J'.table = J.table.insert (key x) x)
    (hold : ∀ y, J.table[key x]? = some y → key y = key x → version y ≠ version x → J'.Past key version (key x) (version y)) :
    J.Keeps key version J' := by
  rintro k g (⟨y, hy, hkey, rfl⟩ | hk)
  · by_cases hx : key x = k
    · subst hx
      by_cases hv : version y = version x
      · exact .inl ⟨x, by simp [htable], rfl, hv.symm⟩
      · exact .inr (hold y hy hkey hv)
    · exact .inl ⟨y, by simpa [htable, ExtTreeMap.getElem?_insert, hx] using hy, hkey, rfl⟩
  · exact .inr (hk.mono hpast)

/-- A record that enters the table where there was none. -/
theorem enter (hnone : J.table[key x]? = none) (past : List ρ) :
    J.Keeps key version ⟨J.table.insert (key x) x, J.past ++ past⟩ := by
  refine store (List.subset_append_left _ _) rfl fun y hy => ?_
  cases hnone.symm.trans hy

/-- The record that is replaced goes into the journal. -/
theorem supersede (hold : J.table[key x]? = some current) :
    J.Keeps key version ⟨J.table.insert (key x) x, J.past ++ [current]⟩ := by
  refine store (List.subset_append_left _ _) rfl fun y hy hkey _ => ?_
  obtain rfl : current = y := Option.some.inj (hold.symm.trans hy)
  exact ⟨current, by simp, hkey, rfl⟩

/-- A record that takes the place of another version of its key, with no entry in the
journal, keeps what was kept if and only if the journal has that version. -/
theorem replace_iff (hold : J.table[key x]? = some current) (hkey : key current = key x)
    (hne : version current ≠ version x) :
    J.Keeps key version ⟨J.table.insert (key x) x, J.past⟩ ↔ J.Past key version (key x) (version current) := by
  refine ⟨fun h => ?_, fun h => ?_⟩
  · rcases h (key x) (version current) (.inl ⟨current, hold, hkey, rfl⟩) with ⟨y, hy, _, hv⟩ | hpast
    · have hyx : some x = some y := ExtTreeMap.getElem?_insert_self.symm.trans hy
      obtain rfl := Option.some.inj hyx
      exact absurd hv.symm hne
    · exact hpast
  · refine store (List.Subset.refl _) rfl fun y hy _ _ => ?_
    obtain rfl : current = y := Option.some.inj (hold.symm.trans hy)
    exact h

end Keeps

/-- The journal shows every record of the table. -/
def Complete (key : ρ → κ) (version : ρ → γ) (J : Journal κ ρ) : Prop :=
  ∀ (k : κ) (x : ρ), J.table[k]? = some x → J.Past key version k (version x)

theorem Complete.past {k : κ} {g : γ} (h : J.Complete key version) (hk : J.Kept key version k g) :
    J.Past key version k g := by
  rcases hk with ⟨x, hx, _, rfl⟩ | hpast
  · exact h k x hx
  · exact hpast

/-- A complete journal that only grows keeps what was kept, whatever the table does. -/
theorem Complete.keeps (h : J.Complete key version) (hpast : J.past ⊆ J'.past) : J.Keeps key version J' :=
  fun _ _ hk => .inr ((h.past hk).mono hpast)

end Journal

end Lib
