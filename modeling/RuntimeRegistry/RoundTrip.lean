import RuntimeRegistry.Bounds
/-!
# What is written is read back

Each `get_x` reads exactly the bytes of `put_x`, as the value they were written
for, if the texts and lists of the value fit. A record is read field by field in
the order it is written, so its proof is the sequence of its fields'.
-/
open Lib Lib.Reader

namespace RuntimeRegistry

/-! ## Integers -/

theorem reads_u8 (v : UInt8) : Reads u8 (put_u8 v) v := by
  intro pre post
  simp [u8, put_u8]

theorem reads_u32 (v : UInt32) : Reads u32 (put_u32 v) v := by
  intro pre post
  have hlen : ¬ pre.length + 4 > (pre ++ (put_u32 v ++ post)).length := by simp [put_u32]
  have hbytes : v.toUInt8.toUInt32 ||| (v >>> 8).toUInt8.toUInt32 <<< 8 ||| (v >>> 16).toUInt8.toUInt32 <<< 16 |||
      (v >>> 24).toUInt8.toUInt32 <<< 24 = v := by
    apply UInt32.toBitVec_inj.1
    apply BitVec.eq_of_getLsbD_eq
    intro i hi
    simp only [UInt32.toBitVec_or, UInt32.toBitVec_shiftLeft, UInt8.toBitVec_toUInt32, UInt32.toBitVec_toUInt8,
      UInt32.toBitVec_shiftRight, BitVec.getLsbD_or]
    have h : i < 8 ∨ (8 ≤ i ∧ i < 16) ∨ (16 ≤ i ∧ i < 24) ∨ (24 ≤ i ∧ i < 32) := by omega
    rcases h with h | h | h | h
    all_goals simp [BitVec.getLsbD_setWidth]
    all_goals grind
  rw [u32, dif_neg hlen]
  simp [put_u32, List.getElem_append_right, -UInt32.toUInt32_toUInt8, hbytes]

theorem reads_u64 (v : UInt64) : Reads u64 (put_u64 v) v := by
  have hbytes : v.toUInt32.toUInt64 ||| (v >>> 32).toUInt32.toUInt64 <<< 32 = v := by
    apply UInt64.toBitVec_inj.1
    apply BitVec.eq_of_getLsbD_eq
    intro i hi
    simp only [UInt64.toBitVec_or, UInt64.toBitVec_shiftLeft, UInt32.toBitVec_toUInt64, UInt64.toBitVec_toUInt32,
      UInt64.toBitVec_shiftRight, BitVec.getLsbD_or]
    have h : i < 32 ∨ (32 ≤ i ∧ i < 64) := by omega
    rcases h with h | h
    all_goals simp [BitVec.getLsbD_setWidth]
    all_goals grind
  have h := (reads_u32 v.toUInt32).bind (f := fun lo => do return lo.toUInt64 ||| (← u32).toUInt64 <<< 32)
    ((reads_u32 (v >>> 32).toUInt32).map _)
  rwa [hbytes] at h

theorem reads_f64 (d : F64) : Reads f64 (put_f64 d) d := (reads_u64 d.bits).map F64.mk

theorem reads_i64 (v : Int64) : Reads get_i64 (put_i64 v) v := by
  have h := (reads_u64 v.toUInt64).map UInt64.toInt64
  rwa [show v.toUInt64.toInt64 = v by simp] at h

theorem reads_bool (b : Bool) : Reads get_bool (put_bool b) b := by
  have h := (reads_u8 (if b then 1 else 0)).map (· != 0)
  cases b <;> exact h

theorem reads_enum {ε : Type} [Enumerators ε] [DecidableEq ε] (x : Enum ε) : Reads get_enum (put_enum x) x := by
  have h := (reads_u8 x.toByte).map (Enum.ofByte (ε := ε))
  rwa [Enum.ofByte_toByte] at h

theorem reads_id {tag : IdTag} (id : Id tag) : Reads get_id (put_id id) id := (reads_u64 id.value).map Id.mk

theorem reads_gen {tag : GenTag} (g : Gen tag) : Reads get_gen (put_gen g) g := (reads_u64 g.value).map Gen.mk

/-! ## Texts and lists -/

theorem toNat_ofNat_length {α : Type} {xs : List α} {n : ℕ} (h : xs.length ≤ n) (hn : n < 2 ^ 32) :
    (UInt32.ofNat xs.length).toNat = xs.length := by
  rw [UInt32.toNat_ofNat']
  exact Nat.mod_eq_of_lt (by omega)

theorem reads_str {s : Text} (h : Text.Fits s) : Reads str (put_str s) s := by
  have hlen := toNat_ofNat_length (n := 0x1000000) h (by omega)
  have hmax : ¬ UInt32.ofNat s.length > 0x1000000 := by
    rw [gt_iff_lt, UInt32.lt_iff_toNat_lt, hlen]
    exact not_lt.2 h
  refine (reads_u32 _).bind fun pre post => ?_
  simp [take, hlen, hmax]

theorem reads_list {α : Type} {max : UInt32} {get : Reader α} {put : α → List UInt8} {xs : List α}
    (hmax : xs.length ≤ max.toNat) (h : ∀ x ∈ xs, Reads get (put x) x) : Reads (get_list max get) (put_list put xs) xs := by
  have hlen := toNat_ofNat_length hmax max.toNat_lt
  have hn : ¬ UInt32.ofNat xs.length > max := by
    rw [gt_iff_lt, UInt32.lt_iff_toNat_lt, hlen]
    exact not_lt.2 hmax
  refine (reads_u32 _).bind ?_
  rw [if_neg hn, hlen]
  exact .many h

theorem reads_enums {ε : Type} [Enumerators ε] [DecidableEq ε] {max : UInt32} {xs : List (Enum ε)}
    (h : xs.length ≤ max.toNat) : Reads (get_list max get_enum) (put_list put_enum xs) xs :=
  reads_list h fun x _ => reads_enum x

theorem reads_ids {tag : IdTag} {max : UInt32} {xs : List (Id tag)} (h : xs.length ≤ max.toNat) :
    Reads (get_list max get_id) (put_list put_id xs) xs :=
  reads_list h fun x _ => reads_id x

/-! ## Versions, provenance and capability values -/

theorem reads_version {v : SemanticVersion} (h : v.TextsFit) : Reads get_version (put_version v) v := by
  unfold put_version
  simp only [List.append_assoc]
  exact (reads_i64 _).bind ((reads_i64 _).bind ((reads_i64 _).bind ((reads_str h.1).bind ((reads_str h.2).map _))))

theorem reads_sv {tag : VersionTag} (v : StructuredVersion tag) : Reads get_sv (put_sv v) v := by
  unfold put_sv
  simp only [List.append_assoc]
  exact (reads_i64 _).bind ((reads_i64 _).bind ((reads_i64 _).map _))

theorem reads_prov {p : Provenance} (h : p.TextsFit) : Reads get_prov (put_prov p) p := by
  unfold put_prov
  simp only [List.append_assoc]
  exact (reads_enum _).bind ((reads_str h.1).bind ((reads_i64 _).bind ((reads_str h.2).map _)))

mutual
/-- A value is read back by every reader that nests as deep as its bytes allow. -/
theorem reads_capval_to : ∀ (v : CapabilityValue) (depth : ℕ), v.TextsFit → v.ListsFit →
    (put_capval v).length / 4 + 1 ≤ depth → Reads (get_capval_to depth) (put_capval v) v
  | ⟨kind, boolean, integer, real, string, has_min, has_max, range_min, range_max, structured⟩, depth + 1, ht, hl, hd => by
    unfold CapabilityValue.TextsFit at ht
    unfold CapabilityValue.ListsFit at hl
    rw [put_capval] at hd ⊢
    have hdepth : (put_entries structured).length / 4 + 1 ≤ depth := by
      simp only [List.length_append, put_u32, List.length_cons, List.length_nil] at hd
      omega
    have hlen := toNat_ofNat_length hl.1 (by omega)
    have hmax : ¬ UInt32.ofNat structured.length > 4096 := by
      rw [gt_iff_lt, UInt32.lt_iff_toNat_lt, hlen]
      exact not_lt.2 hl.1
    have hentries := reads_entries structured depth ht.2 hl.2 hdepth
    rw [← hlen] at hentries
    simp only [List.append_assoc]
    refine (reads_enum _).bind <| (reads_bool _).bind <| (reads_i64 _).bind <| (reads_f64 _).bind <|
      (reads_bool _).bind <| (reads_bool _).bind <| (reads_f64 _).bind <| (reads_f64 _).bind <|
      (reads_str ht.1).bind <| (reads_u32 _).bind ?_
    rw [if_neg hmax]
    exact hentries.map _

theorem reads_entries : ∀ (entries : List (Text × CapabilityValue)) (depth : ℕ), EntriesTextsFit entries →
    EntriesListsFit entries → (put_entries entries).length / 4 + 1 ≤ depth →
    Reads (times (do let k ← str; let v ← get_capval_to depth; return (k, v)) entries.length) (put_entries entries) entries
  | [], _, _, _, _ => .pure []
  | (k, v) :: entries, depth, ht, hl, hd => by
    unfold EntriesTextsFit at ht
    unfold EntriesListsFit at hl
    rw [put_entries] at hd ⊢
    simp only [List.length_append] at hd
    have hentry := (reads_str ht.1).bind (f := fun k => do return (k, ← get_capval_to depth))
      ((reads_capval_to v depth ht.2.1 hl.1 (by omega)).map _)
    exact hentry.bind ((reads_entries entries depth ht.2.2 hl.2 (by omega)).map _)
end

theorem reads_capval {v : CapabilityValue} (ht : v.TextsFit) (hl : v.ListsFit) :
    Reads get_capval (put_capval v) v := by
  intro pre post
  refine reads_capval_to v _ ht hl ?_ pre post
  simp only [List.length_append]
  omega

/-! ## Records -/

theorem reads_servicedesc {s : ServiceDescriptor} (ht : s.TextsFit) (hl : s.ListsFit) :
    Reads get_servicedesc (put_servicedesc s) s := by
  unfold put_servicedesc
  simp only [List.append_assoc]
  exact (reads_id _).bind <| (reads_enum _).bind <| (reads_str ht.1).bind <| (reads_gen _).bind <| (reads_id _).bind <|
    (reads_enum _).bind <| (reads_version ht.2.1).bind <| (reads_sv _).bind <| (reads_sv _).bind <|
    (reads_enums hl.1).bind <| (reads_enums hl.2.1).bind <| (reads_ids hl.2.2).bind <| (reads_id _).bind <|
    (reads_gen _).bind <| (reads_prov ht.2.2.1).bind <| (reads_str ht.2.2.2).map _

theorem reads_instance {i : ServiceInstance} (ht : i.TextsFit) (hl : i.ListsFit) :
    Reads get_instance (put_instance i) i := by
  unfold put_instance
  simp only [List.append_assoc]
  exact (reads_id _).bind <| (reads_id _).bind <| (reads_gen _).bind <| (reads_gen _).bind <| (reads_id _).bind <|
    (reads_id _).bind <| (reads_id _).bind <| (reads_id _).bind <| (reads_id _).bind <| (reads_id _).bind <|
    (reads_ids hl.1).bind <| (reads_ids hl.2.1).bind <| (reads_ids hl.2.2).bind <| (reads_enum _).bind <|
    (reads_enum _).bind <| (reads_enum _).bind <| (reads_enum _).bind <| (reads_id _).bind <| (reads_enum _).bind <|
    (reads_version ht.1).bind <| (reads_id _).bind <| (reads_gen _).bind <| (reads_i64 _).bind <| (reads_i64 _).bind <|
    (reads_i64 _).bind <| (reads_prov ht.2.1).bind <| (reads_str ht.2.2).map _

theorem reads_runtime {rt : RuntimeDescriptor} (ht : rt.TextsFit) (hl : rt.ListsFit) :
    Reads get_runtime (put_runtime rt) rt := by
  obtain ⟨hname, hfamily, hversion, hbuild, hcompiler, harch, hdevice, hprov⟩ := ht
  unfold put_runtime
  simp only [List.append_assoc]
  exact (reads_id _).bind <| (reads_id _).bind <| (reads_gen _).bind <| (reads_enum _).bind <| (reads_str hname).bind <|
    (reads_str hfamily).bind <| (reads_version hversion).bind <| (reads_sv _).bind <| (reads_sv _).bind <|
    (reads_str hbuild).bind <| (reads_str hcompiler).bind <| (reads_ids hl.1).bind <| (reads_ids hl.2.1).bind <|
    (reads_ids hl.2.2).bind <| (reads_str harch).bind <| (reads_str hdevice).bind <| (reads_prov hprov).bind <|
    (reads_id _).bind <| (reads_id _).bind <| (reads_id _).map _

theorem reads_endpoint {e : EndpointDescriptor} (ht : e.TextsFit) : Reads get_endpoint (put_endpoint e) e := by
  have h : Reads get_endpoint (put_endpoint e) { e with port := e.port.toUInt32.toUInt16 } := by
    unfold put_endpoint
    simp only [List.append_assoc]
    exact (reads_id _).bind <| (reads_id _).bind <| (reads_gen _).bind <| (reads_id _).bind <| (reads_str ht.1).bind <|
      (reads_enum _).bind <| (reads_u32 _).bind <| (reads_enum _).bind <| (reads_enum _).bind <| (reads_enum _).bind <|
      (reads_enum _).bind <| (reads_prov ht.2).bind <| (reads_gen _).map _
  -- the port survives being widened and cut back
  rwa [show e.port.toUInt32.toUInt16 = e.port by simp] at h

theorem reads_protocol {p : ProtocolDescriptor} (ht : p.TextsFit) (hl : p.ListsFit) :
    Reads get_protocol (put_protocol p) p := by
  have hlen : p.required_capabilities.length ≤ 256 := hl
  unfold put_protocol
  simp only [List.append_assoc]
  exact (reads_id _).bind <| (reads_str ht.1).bind <| (reads_gen _).bind <| (reads_sv _).bind <| (reads_sv _).bind <|
    (reads_str ht.2.1).bind <| (reads_enums hlen).bind <| (reads_i64 _).bind <| (reads_prov ht.2.2).map _

theorem reads_backend {bd : BackendDescriptor} (ht : bd.TextsFit) (hl : bd.ListsFit) :
    Reads get_backend (put_backend bd) bd := by
  have hlen : bd.capabilities.length ≤ 4096 := hl
  unfold put_backend
  simp only [List.append_assoc]
  exact (reads_id _).bind <| (reads_enum _).bind <| (reads_gen _).bind <| (reads_id _).bind <| (reads_ids hlen).bind <|
    (reads_version ht.1).bind <| (reads_enum _).bind <| (reads_enum _).bind <| (reads_enum _).bind <|
    (reads_prov ht.2).map _

theorem reads_device {d : DeviceDescriptor} (ht : d.TextsFit) : Reads get_device (put_device d) d := by
  obtain ⟨hname, hvendor, harch, hcompute, hbinding, hprov⟩ := ht
  unfold put_device
  simp only [List.append_assoc]
  exact (reads_id _).bind <| (reads_gen _).bind <| (reads_str hname).bind <| (reads_str hvendor).bind <|
    (reads_str harch).bind <| (reads_str hcompute).bind <| (reads_i64 _).bind <| (reads_i64 _).bind <|
    (reads_str hbinding).bind <| (reads_prov hprov).bind <| (reads_enum _).bind <| (reads_enum _).map _

theorem reads_capability {c : CapabilityDescriptor} (ht : c.TextsFit) (hl : c.ListsFit) :
    Reads get_capability (put_capability c) c := by
  obtain ⟨hversion, hvalue, hattributes, hconstraints, hprov⟩ := ht
  unfold put_capability
  simp only [List.append_assoc]
  exact (reads_id _).bind <| (reads_enum _).bind <| (reads_gen _).bind <| (reads_version hversion).bind <|
    (reads_capval hvalue hl.1).bind <| (reads_list hl.2.1 fun s hs => reads_str (hattributes s hs)).bind <|
    (reads_list hl.2.2 fun s hs => reads_str (hconstraints s hs)).bind <| (reads_prov hprov).bind <|
    (reads_enum _).bind <| (reads_gen _).map _

theorem reads_node {n : NodeDescriptor} (ht : n.TextsFit) (hl : n.ListsFit) : Reads get_node (put_node n) n := by
  unfold put_node
  simp only [List.append_assoc]
  exact (reads_id _).bind <| (reads_gen _).bind <| (reads_str ht.1).bind <| (reads_ids hl.1).bind <|
    (reads_ids hl.2.1).bind <| (reads_ids hl.2.2.1).bind <| (reads_ids hl.2.2.2).bind <| (reads_enum _).bind <|
    (reads_enum _).bind <| (reads_enum _).bind <| (reads_enum _).bind <| (reads_prov ht.2).map _

theorem reads_lease {l : LeaseDescriptor} (ht : l.TextsFit) : Reads get_lease (put_lease l) l := by
  unfold put_lease
  simp only [List.append_assoc]
  exact (reads_id _).bind <| (reads_gen _).bind <| (reads_id _).bind <| (reads_id _).bind <| (reads_i64 _).bind <|
    (reads_i64 _).bind <| (reads_enum _).bind <| (reads_enum _).bind <| (reads_i64 _).bind <| (reads_prov ht).bind <|
    (reads_gen _).map _

theorem reads_tombstone {t : TombstoneRecord} (ht : t.TextsFit) : Reads get_tombstone (put_tombstone t) t := by
  obtain ⟨hkind, htext, hreason, hprov⟩ := ht
  unfold put_tombstone
  simp only [List.append_assoc]
  exact (reads_id _).bind <| (reads_str hkind).bind <| (reads_str htext).bind <| (reads_gen _).bind <|
    (reads_gen _).bind <| (reads_id _).bind <| (reads_gen _).bind <| (reads_str hreason).bind <| (reads_i64 _).bind <|
    (reads_prov hprov).map _

theorem reads_invalidation {iv : InvalidationRecord} (ht : iv.TextsFit) :
    Reads get_invalidation (put_invalidation iv) iv := by
  obtain ⟨hkind, htext, hreason, hprov⟩ := ht
  unfold put_invalidation
  simp only [List.append_assoc]
  exact (reads_str hkind).bind <| (reads_str htext).bind <| (reads_gen _).bind <| (reads_gen _).bind <|
    (reads_id _).bind <| (reads_gen _).bind <| (reads_str hreason).bind <| (reads_i64 _).bind <| (reads_prov hprov).map _

theorem reads_compat {c : CompatibilityRecord} (ht : c.TextsFit) : Reads get_compat (put_compat c) c := by
  unfold put_compat
  simp only [List.append_assoc]
  exact (reads_id _).bind <| (reads_gen _).bind <| (reads_enum _).bind <| (reads_enum _).bind <| (reads_prov ht).map _

end RuntimeRegistry
