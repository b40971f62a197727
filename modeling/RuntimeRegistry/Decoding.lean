import RuntimeRegistry.Bounds
/-!
# What the decoder accepts

A record that was read with `ok` set has texts and lists within their bounds,
so what has been loaded once can be written and loaded again.
-/
open Lib Lib.Reader

namespace RuntimeRegistry

/-! ## Moving the cursor -/

instance : Moves u8 where
  data c := by unfold u8; split <;> rfl
  ok c h := by
    unfold u8 at h
    split at h
    · cases h
    · exact h
  forward c := by
    unfold u8
    split
    · exact le_rfl
    · exact Nat.le_succ _
  within c h := by
    unfold u8
    split
    · exact h
    · exact not_lt.1 ‹_›

instance : Moves u32 where
  data c := by unfold u32; split <;> rfl
  ok c h := by
    unfold u32 at h
    split at h
    · cases h
    · exact h
  forward c := by
    unfold u32
    split
    · exact le_rfl
    · exact Nat.le_add_right _ _
  within c h := by
    unfold u32
    split
    · exact h
    · exact not_lt.1 ‹_›

instance : Moves u64 := by unfold u64; infer_instance

instance : Moves f64 := by unfold f64; infer_instance

instance (len : UInt32) : Moves (take len) where
  data c := by unfold take; split <;> rfl
  ok c h := by
    unfold take at h
    split at h
    · cases h
    · exact h
  forward c := by
    unfold take
    split
    · exact le_rfl
    · exact Nat.le_add_right _ _
  within c h := by
    unfold take
    split
    · exact h
    · rename_i hlen
      simp only [Bool.or_eq_true, decide_eq_true_eq, not_or, not_lt] at hlen
      exact hlen.1.2

instance : Moves str := by unfold str; infer_instance

instance : Moves get_i64 := by unfold get_i64; infer_instance

instance : Moves get_bool := by unfold get_bool; infer_instance

instance {ε : Type} [Enumerators ε] : Moves (get_enum (ε := ε)) := by unfold get_enum; infer_instance

instance {tag : IdTag} : Moves (get_id : Reader (Id tag)) := by unfold get_id; infer_instance

instance {tag : GenTag} : Moves (get_gen : Reader (Gen tag)) := by unfold get_gen; infer_instance

instance {α : Type} (max : UInt32) (get : Reader α) [Moves get] : Moves (get_list max get) := by
  unfold get_list; infer_instance

instance : Moves get_version := by unfold get_version; infer_instance

instance {tag : VersionTag} : Moves (get_sv : Reader (StructuredVersion tag)) := by unfold get_sv; infer_instance

instance : Moves get_prov := by unfold get_prov; infer_instance

instance get_capval_to_moves (depth : ℕ) : Moves (get_capval_to depth) := by
  induction depth with
  | zero => unfold get_capval_to; infer_instance
  | succ depth ih => unfold get_capval_to; infer_instance

instance : Moves get_capval where
  data c := by unfold get_capval; exact (get_capval_to_moves _).data c
  ok c := by unfold get_capval; exact (get_capval_to_moves _).ok c
  forward c := by unfold get_capval; exact (get_capval_to_moves _).forward c
  within c := by unfold get_capval; exact (get_capval_to_moves _).within c

/-! ## Texts and lists -/

theorem yields_str : Yields str Text.Fits := by
  refine .skip fun len c hok => ?_
  unfold take at hok ⊢
  split at hok <;> rename_i h
  · cases hok
  · rw [if_neg h]
    simp only [Bool.or_eq_true, decide_eq_true_eq, not_or, UInt32.not_lt] at h
    have hlen : len.toNat ≤ 0x1000000 := UInt32.le_iff_toNat_le.1 h.2
    simp only [Text.Fits, List.length_take]
    omega

theorem yields_list {α : Type} {max : UInt32} {get : Reader α} {P : α → Prop} [Moves get] (h : Yields get P) :
    Yields (get_list max get) fun xs => xs.length ≤ max.toNat ∧ ∀ x ∈ xs, P x := by
  refine .skip fun n => ?_
  split_ifs with hn
  · intro c hok
    have hfalse : (fail c).2.ok = true := (many_moves get n.toNat).ok _ hok
    cases hfalse
  · have hle : n.toNat ≤ max.toNat := UInt32.le_iff_toNat_le.1 (UInt32.not_lt.1 hn)
    exact fun c hok => ((h.many n.toNat) c hok).imp_left fun hlen => hlen.trans hle

theorem yields_enums {ε : Type} [Enumerators ε] (max : UInt32) :
    Yields (get_list max (get_enum (ε := ε))) fun xs => xs.length ≤ max.toNat :=
  fun c hok => (yields_list (P := fun _ => True) (fun _ _ => trivial) c hok).1

theorem yields_ids {tag : IdTag} (max : UInt32) :
    Yields (get_list max (get_id : Reader (Id tag))) fun xs => xs.length ≤ max.toNat :=
  fun c hok => (yields_list (P := fun _ => True) (fun _ _ => trivial) c hok).1

theorem yields_version : Yields get_version SemanticVersion.TextsFit :=
  .skip fun _ => .skip fun _ => .skip fun _ => .bind yields_str fun _ h₁ => .bind yields_str fun _ h₂ => .pure ⟨h₁, h₂⟩

theorem yields_prov : Yields get_prov Provenance.TextsFit :=
  .skip fun _ => .bind yields_str fun _ h₁ => .skip fun _ => .bind yields_str fun _ h₂ => .pure ⟨h₁, h₂⟩

theorem entries_textsFit {entries : List (Text × CapabilityValue)} (h : ∀ e ∈ entries, Text.Fits e.1 ∧ e.2.TextsFit) :
    EntriesTextsFit entries := by
  induction entries with
  | nil => unfold EntriesTextsFit; trivial
  | cons e entries ih =>
    rw [List.forall_mem_cons] at h
    unfold EntriesTextsFit
    exact ⟨h.1.1, h.1.2, ih h.2⟩

theorem entries_listsFit {entries : List (Text × CapabilityValue)} (h : ∀ e ∈ entries, e.2.ListsFit) :
    EntriesListsFit entries := by
  induction entries with
  | nil => unfold EntriesListsFit; trivial
  | cons e entries ih =>
    rw [List.forall_mem_cons] at h
    unfold EntriesListsFit
    exact ⟨h.1, ih h.2⟩

theorem yields_capval_to (depth : ℕ) : Yields (get_capval_to depth) fun v => v.TextsFit ∧ v.ListsFit := by
  induction depth with
  | zero =>
    refine .pure ⟨?_, ?_⟩
    · unfold CapabilityValue.TextsFit EntriesTextsFit
      exact ⟨Nat.zero_le _, trivial⟩
    · unfold CapabilityValue.ListsFit EntriesListsFit
      exact ⟨Nat.zero_le _, trivial⟩
  | succ depth ih =>
    refine .skip fun _ => .skip fun _ => .skip fun _ => .skip fun _ => .skip fun _ => .skip fun _ => .skip fun _ =>
      .skip fun _ => .bind yields_str fun _ hstring => .skip fun len => ?_
    split_ifs with hlen
    · intro c hok
      cases hok
    · have hentry : Yields (do let k ← str; let v ← get_capval_to depth; return (k, v))
          fun e : Text × CapabilityValue => Text.Fits e.1 ∧ e.2.TextsFit ∧ e.2.ListsFit :=
        .bind yields_str fun _ hk => .bind ih fun _ hv => .pure ⟨hk, hv⟩
      refine .bind (hentry.times len.toNat) fun entries he => .pure ⟨?_, ?_⟩
      · unfold CapabilityValue.TextsFit
        exact ⟨hstring, entries_textsFit fun e hmem => ⟨(he.2 e hmem).1, (he.2 e hmem).2.1⟩⟩
      · unfold CapabilityValue.ListsFit
        have hle : len.toNat ≤ 4096 := UInt32.le_iff_toNat_le.1 (UInt32.not_lt.1 hlen)
        exact ⟨he.1 ▸ hle, entries_listsFit fun e hmem => (he.2 e hmem).2.2⟩

theorem yields_capval : Yields get_capval fun v => v.TextsFit ∧ v.ListsFit := by
  intro c hok
  unfold get_capval at hok ⊢
  exact yields_capval_to _ c hok

/-! ## Records -/

theorem yields_servicedesc : Yields get_servicedesc fun s => s.TextsFit ∧ s.ListsFit :=
  .skip fun _ => .skip fun _ => .bind yields_str fun _ hname => .skip fun _ => .skip fun _ => .skip fun _ =>
  .bind yields_version fun _ hversion => .skip fun _ => .skip fun _ => .bind (yields_enums 256) fun _ hrequired =>
  .bind (yields_enums 256) fun _ hoptional => .bind (yields_ids 256) fun _ hprotocols => .skip fun _ => .skip fun _ =>
  .bind yields_prov fun _ hprov => .bind yields_str fun _ hdigest =>
  .pure ⟨⟨hname, hversion, hprov, hdigest⟩, hrequired, hoptional, hprotocols⟩

theorem yields_instance : Yields get_instance fun i => i.TextsFit ∧ i.ListsFit :=
  .skip fun _ => .skip fun _ => .skip fun _ => .skip fun _ => .skip fun _ => .skip fun _ => .skip fun _ =>
  .skip fun _ => .skip fun _ => .skip fun _ => .bind (yields_ids 4096) fun _ hendpoints =>
  .bind (yields_ids 4096) fun _ hprotocols => .bind (yields_ids 4096) fun _ hcapabilities =>
  .skip fun _ => .skip fun _ => .skip fun _ => .skip fun _ => .skip fun _ => .skip fun _ =>
  .bind yields_version fun _ hversion => .skip fun _ => .skip fun _ => .skip fun _ => .skip fun _ => .skip fun _ =>
  .bind yields_prov fun _ hprov => .bind yields_str fun _ hdigest =>
  .pure ⟨⟨hversion, hprov, hdigest⟩, hendpoints, hprotocols, hcapabilities⟩

theorem yields_runtime : Yields get_runtime fun rt => rt.TextsFit ∧ rt.ListsFit :=
  .skip fun _ => .skip fun _ => .skip fun _ => .skip fun _ => .bind yields_str fun _ hname =>
  .bind yields_str fun _ hfamily => .bind yields_version fun _ hversion => .skip fun _ => .skip fun _ =>
  .bind yields_str fun _ hbuild => .bind yields_str fun _ hcompiler => .bind (yields_ids 4096) fun _ hprotocols =>
  .bind (yields_ids 4096) fun _ hcapabilities => .bind (yields_ids 4096) fun _ hbackends =>
  .bind yields_str fun _ harch => .bind yields_str fun _ hdevice => .bind yields_prov fun _ hprov =>
  .skip fun _ => .skip fun _ => .skip fun _ =>
  .pure ⟨⟨hname, hfamily, hversion, hbuild, hcompiler, harch, hdevice, hprov⟩, hprotocols, hcapabilities, hbackends⟩

theorem yields_endpoint : Yields get_endpoint EndpointDescriptor.TextsFit :=
  .skip fun _ => .skip fun _ => .skip fun _ => .skip fun _ => .bind yields_str fun _ hlocator => .skip fun _ =>
  .skip fun _ => .skip fun _ => .skip fun _ => .skip fun _ => .skip fun _ => .bind yields_prov fun _ hprov =>
  .skip fun _ => .pure ⟨hlocator, hprov⟩

theorem yields_protocol : Yields get_protocol fun p => p.TextsFit ∧ p.ListsFit :=
  .skip fun _ => .bind yields_str fun _ hname => .skip fun _ => .skip fun _ => .skip fun _ =>
  .bind yields_str fun _ hframing => .bind (yields_enums 256) fun _ hrequired => .skip fun _ =>
  .bind yields_prov fun _ hprov => .pure ⟨⟨hname, hframing, hprov⟩, hrequired⟩

theorem yields_backend : Yields get_backend fun bd => bd.TextsFit ∧ bd.ListsFit :=
  .skip fun _ => .skip fun _ => .skip fun _ => .skip fun _ => .bind (yields_ids 4096) fun _ hcapabilities =>
  .bind yields_version fun _ hversion => .skip fun _ => .skip fun _ => .skip fun _ =>
  .bind yields_prov fun _ hprov => .pure ⟨⟨hversion, hprov⟩, hcapabilities⟩

theorem yields_device : Yields get_device DeviceDescriptor.TextsFit :=
  .skip fun _ => .skip fun _ => .bind yields_str fun _ hname => .bind yields_str fun _ hvendor =>
  .bind yields_str fun _ harch => .bind yields_str fun _ hcompute => .skip fun _ => .skip fun _ =>
  .bind yields_str fun _ hbinding => .bind yields_prov fun _ hprov => .skip fun _ => .skip fun _ =>
  .pure ⟨hname, hvendor, harch, hcompute, hbinding, hprov⟩

theorem yields_capability : Yields get_capability fun c => c.TextsFit ∧ c.ListsFit :=
  .skip fun _ => .skip fun _ => .skip fun _ => .bind yields_version fun _ hversion =>
  .bind yields_capval fun _ hvalue => .bind (yields_list  yields_str) fun _ hattributes =>
  .bind (yields_list  yields_str) fun _ hconstraints => .bind yields_prov fun _ hprov => .skip fun _ =>
  .skip fun _ => .pure
    ⟨⟨hversion, hvalue.1, hattributes.2, hconstraints.2, hprov⟩, hvalue.2, hattributes.1, hconstraints.1⟩

theorem yields_node : Yields get_node fun n => n.TextsFit ∧ n.ListsFit :=
  .skip fun _ => .skip fun _ => .bind yields_str fun _ hhostname => .bind (yields_ids 4096) fun _ hruntimes =>
  .bind (yields_ids 4096) fun _ hinstances => .bind (yields_ids 4096) fun _ hdevices =>
  .bind (yields_ids 4096) fun _ hbackends => .skip fun _ => .skip fun _ => .skip fun _ => .skip fun _ =>
  .bind yields_prov fun _ hprov => .pure ⟨⟨hhostname, hprov⟩, hruntimes, hinstances, hdevices, hbackends⟩

theorem yields_lease : Yields get_lease LeaseDescriptor.TextsFit :=
  .skip fun _ => .skip fun _ => .skip fun _ => .skip fun _ => .skip fun _ => .skip fun _ => .skip fun _ =>
  .skip fun _ => .skip fun _ => .bind yields_prov fun _ hprov => .skip fun _ => .pure hprov

theorem yields_tombstone : Yields get_tombstone TombstoneRecord.TextsFit :=
  .skip fun _ => .bind yields_str fun _ hkind => .bind yields_str fun _ htext => .skip fun _ => .skip fun _ =>
  .skip fun _ => .skip fun _ => .bind yields_str fun _ hreason => .skip fun _ => .bind yields_prov fun _ hprov =>
  .pure ⟨hkind, htext, hreason, hprov⟩

theorem yields_invalidation : Yields get_invalidation InvalidationRecord.TextsFit :=
  .bind yields_str fun _ hkind => .bind yields_str fun _ htext => .skip fun _ => .skip fun _ => .skip fun _ =>
  .skip fun _ => .bind yields_str fun _ hreason => .skip fun _ => .bind yields_prov fun _ hprov =>
  .pure ⟨hkind, htext, hreason, hprov⟩

theorem yields_compat : Yields get_compat CompatibilityRecord.TextsFit :=
  .skip fun _ => .skip fun _ => .skip fun _ => .skip fun _ => .bind yields_prov fun _ hprov => .pure hprov

/-- Every text that the decoder accepts fits. -/
theorem textsFit_decoded : textsFit.Decoded where
  service c hok := (yields_servicedesc c hok).1
  inst c hok := (yields_instance c hok).1
  runtime c hok := ⟨(yields_runtime c hok).1, (yields_runtime c hok).1⟩
  endpoint := yields_endpoint
  protocol c hok := (yields_protocol c hok).1
  backend c hok := (yields_backend c hok).1
  device := yields_device
  capability c hok := (yields_capability c hok).1
  node c hok := (yields_node c hok).1
  lease := yields_lease
  tombstone := yields_tombstone
  compat := yields_compat
  invalidation := yields_invalidation

/-- Every list that the decoder accepts fits. -/
theorem listsFit_decoded : listsFit.Decoded where
  service c hok := (yields_servicedesc c hok).2
  inst c hok := (yields_instance c hok).2
  runtime c hok := ⟨(yields_runtime c hok).2, (yields_runtime c hok).2⟩
  endpoint _ _ := trivial
  protocol c hok := (yields_protocol c hok).2
  backend c hok := (yields_backend c hok).2
  device _ _ := trivial
  capability c hok := (yields_capability c hok).2
  node c hok := (yields_node c hok).2
  lease _ _ := trivial
  tombstone _ _ := trivial
  compat _ _ := trivial
  invalidation _ _ := trivial

end RuntimeRegistry
