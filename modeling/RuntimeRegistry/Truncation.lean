import RuntimeRegistry.Admission
import RuntimeRegistry.Loading
import RuntimeRegistry.Snapshots
/-!
# Lengths that are not cut

A length is written in 32 bits. Where no text, list or table is longer than that, the
decoder has no way but to read a record as it was written or to fail, so an image that
is accepted restores exactly the registry that was written. Nothing is promised here of
what it refuses: a text over 2^24 bytes is short enough, and its image is never accepted.
-/
open Lib Lib.Reader Lib.Table

namespace RuntimeRegistry

/-! ## Texts and lists -/

/-- The length is what its 32 bits say. -/
def Short {α : Type} (xs : List α) : Prop := xs.length < 2 ^ 32

theorem Short.toNat {α : Type} {xs : List α} (h : Short xs) : (UInt32.ofNat xs.length).toNat = xs.length := by
  rw [UInt32.toNat_ofNat', Nat.mod_eq_of_lt h]

theorem readsOrFails_str {s : Text} (h : Short s) : ReadsOrFails str (put_str s) s := by
  by_cases hfits : Text.Fits s
  · exact .inl (reads_str hfits)
  · refine .inr ((reads_u32 _).bind_fails fun pre post => ?_)
    have hlen : UInt32.ofNat s.length > 0x1000000 := by
      rw [gt_iff_lt, UInt32.lt_iff_toNat_lt, h.toNat]
      exact not_le.1 hfits
    simp [take, hlen]

theorem readsOrFails_list {α : Type} {max : UInt32} {get : Reader α} [Moves get] {put : α → List UInt8} {xs : List α}
    (h : Short xs) (hx : ∀ x ∈ xs, ReadsOrFails get (put x) x) : ReadsOrFails (get_list max get) (put_list put xs) xs := by
  rcases le_or_gt xs.length max.toNat with hmax | hmax
  · have hn : ¬ UInt32.ofNat xs.length > max := by
      rw [gt_iff_lt, UInt32.lt_iff_toNat_lt, h.toNat]
      exact not_lt.2 hmax
    refine (reads_u32 _).then ?_
    rw [if_neg hn, h.toNat]
    exact .many hx
  · exact .inr (Registry.fails_list hmax h)

theorem readsOrFails_texts {max : UInt32} {xs : List Text} (h : Short xs) (hx : ∀ x ∈ xs, Short x) :
    ReadsOrFails (get_list max str) (put_list put_str xs) xs :=
  readsOrFails_list h fun x hmem => readsOrFails_str (hx x hmem)

theorem readsOrFails_enums {ε : Type} [Enumerators ε] [DecidableEq ε] {max : UInt32} {xs : List (Enum ε)} (h : Short xs) :
    ReadsOrFails (get_list max get_enum) (put_list put_enum xs) xs :=
  readsOrFails_list h fun x _ => .inl (reads_enum x)

theorem readsOrFails_ids {tag : IdTag} {max : UInt32} {xs : List (Id tag)} (h : Short xs) :
    ReadsOrFails (get_list max get_id) (put_list put_id xs) xs :=
  readsOrFails_list h fun x _ => .inl (reads_id x)

/-! ## Versions, provenance and capability values -/

def SemanticVersion.Uncut (v : SemanticVersion) : Prop := Short v.prerelease ∧ Short v.build

def Provenance.Uncut (p : Provenance) : Prop := Short p.source ∧ Short p.digest

mutual
def CapabilityValue.Uncut : CapabilityValue → Prop
  | ⟨_, _, _, _, string, _, _, _, _, structured⟩ => Short string ∧ Short structured ∧ EntriesUncut structured

def EntriesUncut : List (Text × CapabilityValue) → Prop
  | [] => True
  | (k, v) :: entries => Short k ∧ v.Uncut ∧ EntriesUncut entries
end

theorem readsOrFails_version {v : SemanticVersion} (h : v.Uncut) : ReadsOrFails get_version (put_version v) v := by
  unfold put_version
  simp only [List.append_assoc]
  exact (reads_i64 _).then <| (reads_i64 _).then <| (reads_i64 _).then <| (readsOrFails_str h.1).bind <|
    (readsOrFails_str h.2).map _

theorem readsOrFails_prov {p : Provenance} (h : p.Uncut) : ReadsOrFails get_prov (put_prov p) p := by
  unfold put_prov
  simp only [List.append_assoc]
  exact (reads_enum _).then <| (readsOrFails_str h.1).bind <| (reads_i64 _).then <| (readsOrFails_str h.2).map _

mutual
theorem readsOrFails_capval_to : ∀ (v : CapabilityValue) (depth : ℕ), v.Uncut → (put_capval v).length / 4 + 1 ≤ depth →
    ReadsOrFails (get_capval_to depth) (put_capval v) v
  | ⟨kind, boolean, integer, real, string, has_min, has_max, range_min, range_max, structured⟩, depth + 1, h, hd => by
    unfold CapabilityValue.Uncut at h
    rw [put_capval] at hd ⊢
    have hdepth : (put_entries structured).length / 4 + 1 ≤ depth := by
      simp only [List.length_append, put_u32, List.length_cons, List.length_nil] at hd
      omega
    have hentries := readsOrFails_entries structured depth h.2.2 hdepth
    rw [← h.2.1.toNat] at hentries
    simp only [List.append_assoc]
    refine (reads_enum _).then <| (reads_bool _).then <| (reads_i64 _).then <| (reads_f64 _).then <|
      (reads_bool _).then <| (reads_bool _).then <| (reads_f64 _).then <| (reads_f64 _).then <|
      (readsOrFails_str h.1).bind <| (reads_u32 _).then ?_
    split_ifs
    -- more entries than a value may have clear `ok` before the first of them
    · exact .inr fun _ _ => rfl
    · exact hentries.map _

theorem readsOrFails_entries : ∀ (entries : List (Text × CapabilityValue)) (depth : ℕ), EntriesUncut entries →
    (put_entries entries).length / 4 + 1 ≤ depth →
    ReadsOrFails (times (do let k ← str; let v ← get_capval_to depth; return (k, v)) entries.length) (put_entries entries)
      entries
  | [], _, _, _ => .inl (.pure [])
  | (k, v) :: entries, depth, h, hd => by
    unfold EntriesUncut at h
    rw [put_entries] at hd ⊢
    simp only [List.length_append] at hd
    have hentry := (readsOrFails_str h.1).bind (f := fun k => do return (k, ← get_capval_to depth))
      ((readsOrFails_capval_to v depth h.2.1 (by omega)).map _)
    exact hentry.bind ((readsOrFails_entries entries depth h.2.2 (by omega)).map _)
end

/-- The nesting that is allowed depends on the bytes behind the value, but whether it is
read does not: what is read fits. -/
theorem readsOrFails_capval {v : CapabilityValue} (h : v.Uncut) : ReadsOrFails get_capval (put_capval v) v := by
  by_cases hfits : v.TextsFit ∧ v.ListsFit
  · exact .inl (reads_capval hfits.1 hfits.2)
  refine .inr fun pre post => ?_
  have hdepth : (put_capval v).length / 4 + 1 ≤ ((pre ++ (put_capval v ++ post)).length - pre.length) / 4 + 1 := by
    simp only [List.length_append]
    omega
  unfold get_capval
  generalize ((pre ++ (put_capval v ++ post)).length - pre.length) / 4 + 1 = depth at hdepth
  rcases readsOrFails_capval_to v depth h hdepth with hreads | hfails
  · have hrun := hreads pre post
    have hyields := yields_capval_to depth ⟨pre ++ (put_capval v ++ post), pre.length, true⟩ (by rw [hrun])
    rw [hrun] at hyields
    exact absurd hyields hfits
  · exact hfails pre post

/-! ## Records -/

def ServiceDescriptor.Uncut (s : ServiceDescriptor) : Prop :=
  Short s.name ∧ s.version.Uncut ∧ Short s.required_capabilities ∧ Short s.optional_capabilities ∧
    Short s.protocol_requirements ∧ s.provenance.Uncut ∧ Short s.semantic_digest

def ServiceInstance.Uncut (i : ServiceInstance) : Prop :=
  Short i.endpoints ∧ Short i.protocols ∧ Short i.capabilities ∧ i.version.Uncut ∧ i.provenance.Uncut ∧
    Short i.semantic_digest

def RuntimeDescriptor.Uncut (rt : RuntimeDescriptor) : Prop :=
  Short rt.name ∧ Short rt.family ∧ rt.version.Uncut ∧ Short rt.build_identity ∧ Short rt.compiler_identity ∧
    Short rt.supported_protocols ∧ Short rt.capabilities ∧ Short rt.backends ∧ Short rt.architecture ∧
    Short rt.device_constraint ∧ rt.provenance.Uncut

def EndpointDescriptor.Uncut (e : EndpointDescriptor) : Prop := Short e.locator ∧ e.provenance.Uncut

def ProtocolDescriptor.Uncut (p : ProtocolDescriptor) : Prop :=
  Short p.name ∧ Short p.framing ∧ Short p.required_capabilities ∧ p.provenance.Uncut

def BackendDescriptor.Uncut (bd : BackendDescriptor) : Prop :=
  Short bd.capabilities ∧ bd.version.Uncut ∧ bd.provenance.Uncut

def DeviceDescriptor.Uncut (d : DeviceDescriptor) : Prop :=
  Short d.name ∧ Short d.vendor ∧ Short d.architecture ∧ Short d.compute_capability ∧ Short d.backend_binding ∧
    d.provenance.Uncut

def CapabilityDescriptor.Uncut (c : CapabilityDescriptor) : Prop :=
  c.version.Uncut ∧ c.value.Uncut ∧ (Short c.attributes ∧ ∀ s ∈ c.attributes, Short s) ∧
    (Short c.constraints ∧ ∀ s ∈ c.constraints, Short s) ∧ c.provenance.Uncut

def NodeDescriptor.Uncut (n : NodeDescriptor) : Prop :=
  Short n.hostname ∧ Short n.runtimes ∧ Short n.service_instances ∧ Short n.devices ∧ Short n.backends ∧
    n.provenance.Uncut

def LeaseDescriptor.Uncut (l : LeaseDescriptor) : Prop := l.provenance.Uncut

def TombstoneRecord.Uncut (t : TombstoneRecord) : Prop :=
  Short t.target_kind ∧ Short t.target_text ∧ Short t.reason ∧ t.provenance.Uncut

def InvalidationRecord.Uncut (iv : InvalidationRecord) : Prop :=
  Short iv.target_kind ∧ Short iv.target_text ∧ Short iv.reason ∧ iv.provenance.Uncut

def CompatibilityRecord.Uncut (c : CompatibilityRecord) : Prop := c.provenance.Uncut

theorem readsOrFails_servicedesc {s : ServiceDescriptor} (h : s.Uncut) :
    ReadsOrFails get_servicedesc (put_servicedesc s) s := by
  obtain ⟨hname, hversion, hrequired, hoptional, hprotocols, hprov, hdigest⟩ := h
  unfold put_servicedesc
  simp only [List.append_assoc]
  exact (reads_id _).then <| (reads_enum _).then <| (readsOrFails_str hname).bind <| (reads_gen _).then <|
    (reads_id _).then <| (reads_enum _).then <| (readsOrFails_version hversion).bind <| (reads_sv _).then <|
    (reads_sv _).then <| (readsOrFails_enums hrequired).bind <| (readsOrFails_enums hoptional).bind <|
    (readsOrFails_ids hprotocols).bind <| (reads_id _).then <| (reads_gen _).then <| (readsOrFails_prov hprov).bind <|
    (readsOrFails_str hdigest).map _

theorem readsOrFails_instance {i : ServiceInstance} (h : i.Uncut) : ReadsOrFails get_instance (put_instance i) i := by
  obtain ⟨hendpoints, hprotocols, hcapabilities, hversion, hprov, hdigest⟩ := h
  unfold put_instance
  simp only [List.append_assoc]
  exact (reads_id _).then <| (reads_id _).then <| (reads_gen _).then <| (reads_gen _).then <| (reads_id _).then <|
    (reads_id _).then <| (reads_id _).then <| (reads_id _).then <| (reads_id _).then <| (reads_id _).then <|
    (readsOrFails_ids hendpoints).bind <| (readsOrFails_ids hprotocols).bind <| (readsOrFails_ids hcapabilities).bind <|
    (reads_enum _).then <| (reads_enum _).then <| (reads_enum _).then <| (reads_enum _).then <| (reads_id _).then <|
    (reads_enum _).then <| (readsOrFails_version hversion).bind <| (reads_id _).then <| (reads_gen _).then <|
    (reads_i64 _).then <| (reads_i64 _).then <| (reads_i64 _).then <| (readsOrFails_prov hprov).bind <|
    (readsOrFails_str hdigest).map _

theorem readsOrFails_runtime {rt : RuntimeDescriptor} (h : rt.Uncut) : ReadsOrFails get_runtime (put_runtime rt) rt := by
  obtain ⟨hname, hfamily, hversion, hbuild, hcompiler, hprotocols, hcapabilities, hbackends, harch, hdevice, hprov⟩ := h
  unfold put_runtime
  simp only [List.append_assoc]
  exact (reads_id _).then <| (reads_id _).then <| (reads_gen _).then <| (reads_enum _).then <|
    (readsOrFails_str hname).bind <| (readsOrFails_str hfamily).bind <| (readsOrFails_version hversion).bind <|
    (reads_sv _).then <| (reads_sv _).then <| (readsOrFails_str hbuild).bind <| (readsOrFails_str hcompiler).bind <|
    (readsOrFails_ids hprotocols).bind <| (readsOrFails_ids hcapabilities).bind <| (readsOrFails_ids hbackends).bind <|
    (readsOrFails_str harch).bind <| (readsOrFails_str hdevice).bind <| (readsOrFails_prov hprov).bind <|
    (reads_id _).then <| (reads_id _).then <| .inl ((reads_id _).map _)

theorem readsOrFails_endpoint {e : EndpointDescriptor} (h : e.Uncut) : ReadsOrFails get_endpoint (put_endpoint e) e := by
  have hread : ReadsOrFails get_endpoint (put_endpoint e) { e with port := e.port.toUInt32.toUInt16 } := by
    unfold put_endpoint
    simp only [List.append_assoc]
    exact (reads_id _).then <| (reads_id _).then <| (reads_gen _).then <| (reads_id _).then <|
      (readsOrFails_str h.1).bind <| (reads_enum _).then <| (reads_u32 _).then <| (reads_enum _).then <|
      (reads_enum _).then <| (reads_enum _).then <| (reads_enum _).then <| (readsOrFails_prov h.2).bind <|
      .inl ((reads_gen _).map _)
  -- the port survives being widened and cut back
  rwa [show e.port.toUInt32.toUInt16 = e.port by simp] at hread

theorem readsOrFails_protocol {p : ProtocolDescriptor} (h : p.Uncut) : ReadsOrFails get_protocol (put_protocol p) p := by
  obtain ⟨hname, hframing, hrequired, hprov⟩ := h
  unfold put_protocol
  simp only [List.append_assoc]
  exact (reads_id _).then <| (readsOrFails_str hname).bind <| (reads_gen _).then <| (reads_sv _).then <|
    (reads_sv _).then <| (readsOrFails_str hframing).bind <| (readsOrFails_enums hrequired).bind <| (reads_i64 _).then <|
    (readsOrFails_prov hprov).map _

theorem readsOrFails_backend {bd : BackendDescriptor} (h : bd.Uncut) : ReadsOrFails get_backend (put_backend bd) bd := by
  unfold put_backend
  simp only [List.append_assoc]
  exact (reads_id _).then <| (reads_enum _).then <| (reads_gen _).then <| (reads_id _).then <|
    (readsOrFails_ids h.1).bind <| (readsOrFails_version h.2.1).bind <| (reads_enum _).then <| (reads_enum _).then <|
    (reads_enum _).then <| (readsOrFails_prov h.2.2).map _

theorem readsOrFails_device {d : DeviceDescriptor} (h : d.Uncut) : ReadsOrFails get_device (put_device d) d := by
  obtain ⟨hname, hvendor, harch, hcompute, hbinding, hprov⟩ := h
  unfold put_device
  simp only [List.append_assoc]
  exact (reads_id _).then <| (reads_gen _).then <| (readsOrFails_str hname).bind <| (readsOrFails_str hvendor).bind <|
    (readsOrFails_str harch).bind <| (readsOrFails_str hcompute).bind <| (reads_i64 _).then <| (reads_i64 _).then <|
    (readsOrFails_str hbinding).bind <| (readsOrFails_prov hprov).bind <| (reads_enum _).then <|
    .inl ((reads_enum _).map _)

theorem readsOrFails_capability {c : CapabilityDescriptor} (h : c.Uncut) :
    ReadsOrFails get_capability (put_capability c) c := by
  obtain ⟨hversion, hvalue, hattributes, hconstraints, hprov⟩ := h
  unfold put_capability
  simp only [List.append_assoc]
  exact (reads_id _).then <| (reads_enum _).then <| (reads_gen _).then <| (readsOrFails_version hversion).bind <|
    (readsOrFails_capval hvalue).bind <| (readsOrFails_texts hattributes.1 hattributes.2).bind <|
    (readsOrFails_texts hconstraints.1 hconstraints.2).bind <| (readsOrFails_prov hprov).bind <| (reads_enum _).then <|
    .inl ((reads_gen _).map _)

theorem readsOrFails_node {n : NodeDescriptor} (h : n.Uncut) : ReadsOrFails get_node (put_node n) n := by
  obtain ⟨hhostname, hruntimes, hinstances, hdevices, hbackends, hprov⟩ := h
  unfold put_node
  simp only [List.append_assoc]
  exact (reads_id _).then <| (reads_gen _).then <| (readsOrFails_str hhostname).bind <|
    (readsOrFails_ids hruntimes).bind <| (readsOrFails_ids hinstances).bind <| (readsOrFails_ids hdevices).bind <|
    (readsOrFails_ids hbackends).bind <| (reads_enum _).then <| (reads_enum _).then <| (reads_enum _).then <|
    (reads_enum _).then <| (readsOrFails_prov hprov).map _

theorem readsOrFails_lease {l : LeaseDescriptor} (h : l.Uncut) : ReadsOrFails get_lease (put_lease l) l := by
  unfold put_lease
  simp only [List.append_assoc]
  exact (reads_id _).then <| (reads_gen _).then <| (reads_id _).then <| (reads_id _).then <| (reads_i64 _).then <|
    (reads_i64 _).then <| (reads_enum _).then <| (reads_enum _).then <| (reads_i64 _).then <|
    (readsOrFails_prov h).bind <| .inl ((reads_gen _).map _)

theorem readsOrFails_tombstone {t : TombstoneRecord} (h : t.Uncut) : ReadsOrFails get_tombstone (put_tombstone t) t := by
  obtain ⟨hkind, htext, hreason, hprov⟩ := h
  unfold put_tombstone
  simp only [List.append_assoc]
  exact (reads_id _).then <| (readsOrFails_str hkind).bind <| (readsOrFails_str htext).bind <| (reads_gen _).then <|
    (reads_gen _).then <| (reads_id _).then <| (reads_gen _).then <| (readsOrFails_str hreason).bind <|
    (reads_i64 _).then <| (readsOrFails_prov hprov).map _

theorem readsOrFails_invalidation {iv : InvalidationRecord} (h : iv.Uncut) :
    ReadsOrFails get_invalidation (put_invalidation iv) iv := by
  obtain ⟨hkind, htext, hreason, hprov⟩ := h
  unfold put_invalidation
  simp only [List.append_assoc]
  exact (readsOrFails_str hkind).bind <| (readsOrFails_str htext).bind <| (reads_gen _).then <| (reads_gen _).then <|
    (reads_id _).then <| (reads_gen _).then <| (readsOrFails_str hreason).bind <| (reads_i64 _).then <|
    (readsOrFails_prov hprov).map _

theorem readsOrFails_compat {c : CompatibilityRecord} (h : c.Uncut) : ReadsOrFails get_compat (put_compat c) c := by
  unfold put_compat
  simp only [List.append_assoc]
  exact (reads_id _).then <| (reads_gen _).then <| (reads_enum _).then <| (reads_enum _).then <|
    (readsOrFails_prov h).map _

/-! ## Registries -/

/-- No text and no list of a record is cut. -/
def uncut : RecordCondition where
  service _ x := x.Uncut
  inst _ x := x.Uncut
  runtime _ x := x.Uncut
  runtimeInstance _ x := x.Uncut
  endpoint _ x := x.Uncut
  protocol _ x := x.Uncut
  backend _ x := x.Uncut
  device _ x := x.Uncut
  capability _ x := x.Uncut
  node _ x := x.Uncut
  lease _ x := x.Uncut
  tombstone _ x := x.Uncut
  compat _ x := x.Uncut
  invalidation x := x.Uncut

theorem uncut_stable : uncut.Stable := by
  constructor <;> intros <;> assumption

namespace Registry

variable {r s t : Registry} {f g : Loading} {bytes rest : List UInt8}

/-- No length of the registry needs more than the 32 bits it is written in. -/
structure Uncut (r : Registry) : Prop where
  records : uncut.Holds r
  services : r.services.size < 2 ^ 32
  instances : r.instances.size < 2 ^ 32
  runtimes : r.runtimes.size < 2 ^ 32
  runtime_instances : r.runtime_instances.size < 2 ^ 32
  endpoints : r.endpoints.size < 2 ^ 32
  protocols : r.protocols.size < 2 ^ 32
  backends : r.backends.size < 2 ^ 32
  devices : r.devices.size < 2 ^ 32
  capabilities : r.capabilities.size < 2 ^ 32
  nodes : r.nodes.size < 2 ^ 32
  leases : r.leases.size < 2 ^ 32
  tombstones : r.tombstones.size < 2 ^ 32
  compat_records : r.compat_records.size < 2 ^ 32
  invalidations : r.invalidations.length < 2 ^ 32
  instance_history : r.instance_history.length < 2 ^ 32
  runtime_history : r.runtime_history.length < 2 ^ 32
  endpoint_history : r.endpoint_history.length < 2 ^ 32
  capability_history : r.capability_history.length < 2 ^ 32

/-! ## The header -/

theorem readsOrFails_count {n : ℕ} (h : n < 2 ^ 32) : ReadsOrFails rd_count (put_count n) n := by
  rcases le_or_gt n 10000000 with hmax | hmax
  · exact .inl (reads_count hmax)
  · have hn : UInt32.ofNat n > kMaxRecordsPerMap := by
      rw [gt_iff_lt, UInt32.lt_iff_toNat_lt, UInt32.toNat_ofNat', Nat.mod_eq_of_lt h]
      exact hmax
    have hfails : Fails (if UInt32.ofNat n > kMaxRecordsPerMap then do fail; return (UInt32.ofNat n).toNat
        else return (UInt32.ofNat n).toNat) [] := by
      rw [if_pos hn]
      exact fun _ _ => rfl
    have hread := (reads_u32 (UInt32.ofNat n)).bind_fails
      (f := fun c => if c > kMaxRecordsPerMap then do fail; return c.toNat else return c.toNat) hfails
    rw [List.append_nil] at hread
    exact .inr hread

theorem readsOrFails_counts (h : r.Uncut) : ReadsOrFails get_counts r.put_counts r.counts := by
  unfold put_counts
  simp only [List.append_assoc]
  exact (readsOrFails_count h.services).bind <| (readsOrFails_count h.instances).bind <|
    (readsOrFails_count h.runtimes).bind <| (readsOrFails_count h.runtime_instances).bind <|
    (readsOrFails_count h.endpoints).bind <| (readsOrFails_count h.protocols).bind <|
    (readsOrFails_count h.backends).bind <| (readsOrFails_count h.devices).bind <|
    (readsOrFails_count h.capabilities).bind <| (readsOrFails_count h.nodes).bind <|
    (readsOrFails_count h.leases).bind <| (readsOrFails_count h.tombstones).bind <|
    (readsOrFails_count h.compat_records).bind <| (readsOrFails_count h.invalidations).bind <|
    (readsOrFails_count h.instance_history).bind <| (readsOrFails_count h.runtime_history).bind <|
    (readsOrFails_count h.endpoint_history).bind <| (readsOrFails_count h.capability_history).map _

theorem readsOrFails_header (h : r.Uncut) : ReadsOrFails get_header
    (put_authority r.authority ++ (put_u64 r.next_boot ++ (put_u64 r.next_id ++ r.put_counts))) r.header :=
  (reads_authority _).then <| (reads_u64 _).then <| (reads_u64 _).then <| (readsOrFails_counts h).map _

/-! ## The records -/

/-- Wherever `bytes` stand, the step has no way but to read them and take `r` to `t`, or
to throw. -/
def LoadsOrThrows (f : Loading) (bytes : List UInt8) (r t : Registry) : Prop :=
  ∀ pre post, f ⟨pre ++ (bytes ++ post), pre.length, true⟩ r =
      (.ok ⟨pre ++ (bytes ++ post), pre.length + bytes.length, true⟩, t) ∨
    ∃ e u, f ⟨pre ++ (bytes ++ post), pre.length, true⟩ r = (.error e, u)

theorem LoadsOrThrows.next (hf : LoadsOrThrows f bytes r s) (hg : LoadsOrThrows g rest s t) :
    LoadsOrThrows (f.next g) (bytes ++ rest) r t := by
  intro pre post
  have h₂ := hg (pre ++ bytes) post
  simp only [List.append_assoc, List.length_append, ← Nat.add_assoc] at h₂ ⊢
  rcases hf pre (rest ++ post) with h₁ | ⟨e, u, h₁⟩
  · rw [Loading.next, h₁, Outcome.andThen_ok]
    exact h₂
  · rw [Loading.next, h₁]
    exact .inr ⟨e, u, rfl⟩

section
variable {ρ : Type} {get : Reader ρ} {put : ρ → List UInt8} {broken : String} {refuse : Registry → ρ → Option String}
  {store : ρ → Registry → Registry}

/-- The loop over records that are read or not. -/
theorem loadRecords_loadsOrThrows {xs : List ρ} (hget : ∀ x ∈ xs, ReadsOrFails get (put x) x) :
    LoadsOrThrows (loadRecords get broken refuse store xs.length) (xs.flatMap put) r (xs.foldl (fun r x => store x r) r) := by
  induction xs generalizing r with
  | nil => exact fun pre post => .inl rfl
  | cons x xs ih =>
    rw [List.forall_mem_cons] at hget
    intro pre post
    simp only [List.flatMap_cons, List.append_assoc, List.length_append, List.length_cons, List.foldl_cons, loadRecords]
    rcases hget.1 with hreads | hfails
    · have hrest := ih hget.2 (r := store x r) (pre ++ put x) post
      simp only [List.append_assoc, List.length_append, Nat.add_assoc] at hrest
      simp only [hreads pre (xs.flatMap put ++ post), Bool.not_true, Bool.false_eq_true, if_false]
      rcases refuse r x with _ | message
      · exact hrest
      · exact .inr ⟨_, _, rfl⟩
    · simp only [hfails pre (xs.flatMap put ++ post), Bool.not_false, if_true]
      exact .inr ⟨_, _, rfl⟩

variable {tag : IdTag} {m : Map tag ρ} {key : ρ → Id tag}

theorem loadTable_loadsOrThrows (set : Map tag ρ → Registry → Registry) (hget : All (fun _ x => ReadsOrFails get (put x) x) m)
    (hkey : All (fun k x => key x = k) m) (hempty : set ∅ r = r)
    (hstore : ∀ x m', store x (set m' r) = set (m'.insert (key x) x) r) :
    LoadsOrThrows (loadRecords get broken refuse store m.size) (serialize_sorted m.keys m put) r (set m r) := by
  have hreads : ∀ x ∈ values m, ReadsOrFails get (put x) x := fun x hx => (mem_values.1 hx).elim fun k hk => hget k x hk
  have hset : (values m).foldl (fun r x => store x r) r = set m r := by
    have h := foldl_store (values m) ∅ hstore
    rwa [build_values hkey, hempty] at h
  rw [serialize_sorted_keys, ← length_values, ← hset]
  exact loadRecords_loadsOrThrows hreads

theorem loadList_loadsOrThrows (set : List ρ → Registry → Registry) {xs : List ρ}
    (hget : ∀ x ∈ xs, ReadsOrFails get (put x) x) (hempty : set [] r = r)
    (hstore : ∀ x ys, store x (set ys r) = set (ys ++ [x]) r) :
    LoadsOrThrows (loadList get broken store xs.length) (xs.flatMap put) r (set xs r) := by
  rw [← foldl_append_store set hempty hstore]
  exact loadRecords_loadsOrThrows hget

end

theorem loadAll_loadsOrThrows (hkey : wellKeyed.Holds r) (h : uncut.Holds r) (s : Registry) :
    LoadsOrThrows (loadAll r.counts) r.put_records s.cleared (r.withRecords s) := by
  unfold put_records
  simp only [List.append_assoc]
  refine .next (loadTable_loadsOrThrows (fun m s => { s with services := m })
    (fun k x hx => readsOrFails_servicedesc (h.services k x hx)) hkey.services rfl fun _ _ => rfl) ?_
  refine .next (loadTable_loadsOrThrows (fun m s => { s with instances := m })
    (fun k x hx => readsOrFails_instance (h.instances k x hx)) hkey.instances rfl fun _ _ => rfl) ?_
  refine .next (loadTable_loadsOrThrows (fun m s => { s with runtimes := m })
    (fun k x hx => readsOrFails_runtime (h.runtimes k x hx)) hkey.runtimes rfl fun _ _ => rfl) ?_
  refine .next (loadTable_loadsOrThrows (fun m s => { s with runtime_instances := m })
    (fun k x hx => readsOrFails_runtime (h.runtime_instances k x hx)) hkey.runtime_instances rfl fun _ _ => rfl) ?_
  refine .next (loadTable_loadsOrThrows (fun m s => { s with endpoints := m })
    (fun k x hx => readsOrFails_endpoint (h.endpoints k x hx)) hkey.endpoints rfl fun _ _ => rfl) ?_
  refine .next (loadTable_loadsOrThrows (fun m s => { s with protocols := m })
    (fun k x hx => readsOrFails_protocol (h.protocols k x hx)) hkey.protocols rfl fun _ _ => rfl) ?_
  refine .next (loadTable_loadsOrThrows (fun m s => { s with backends := m })
    (fun k x hx => readsOrFails_backend (h.backends k x hx)) hkey.backends rfl fun _ _ => rfl) ?_
  refine .next (loadTable_loadsOrThrows (fun m s => { s with devices := m })
    (fun k x hx => readsOrFails_device (h.devices k x hx)) hkey.devices rfl fun _ _ => rfl) ?_
  refine .next (loadTable_loadsOrThrows (fun m s => { s with capabilities := m })
    (fun k x hx => readsOrFails_capability (h.capabilities k x hx)) hkey.capabilities rfl fun _ _ => rfl) ?_
  refine .next (loadTable_loadsOrThrows (fun m s => { s with nodes := m })
    (fun k x hx => readsOrFails_node (h.nodes k x hx)) hkey.nodes rfl fun _ _ => rfl) ?_
  refine .next (loadTable_loadsOrThrows (fun m s => { s with leases := m })
    (fun k x hx => readsOrFails_lease (h.leases k x hx)) hkey.leases rfl fun _ _ => rfl) ?_
  refine .next (loadTable_loadsOrThrows (fun m s => { s with tombstones := m })
    (fun k x hx => readsOrFails_tombstone (h.tombstones k x hx)) hkey.tombstones rfl fun _ _ => rfl) ?_
  refine .next (loadTable_loadsOrThrows (fun m s => { s with compat_records := m })
    (fun k x hx => readsOrFails_compat (h.compat_records k x hx)) hkey.compat_records rfl fun _ _ => rfl) ?_
  refine .next (loadList_loadsOrThrows (fun xs s => { s with invalidations := xs })
    (fun x hx => readsOrFails_invalidation (h.invalidations x hx)) rfl fun _ _ => rfl) ?_
  refine .next (loadList_loadsOrThrows (fun xs s => { s with instance_history := xs })
    (fun x hx => readsOrFails_instance (h.instance_history x hx).choose_spec) rfl fun _ _ => rfl) ?_
  refine .next (loadList_loadsOrThrows (fun xs s => { s with runtime_history := xs })
    (fun x hx => readsOrFails_runtime (h.runtime_history x hx).choose_spec) rfl fun _ _ => rfl) ?_
  refine .next (loadList_loadsOrThrows (fun xs s => { s with endpoint_history := xs })
    (fun x hx => readsOrFails_endpoint (h.endpoint_history x hx).choose_spec) rfl fun _ _ => rfl) ?_
  exact loadList_loadsOrThrows (fun xs s => { s with capability_history := xs })
    (fun x hx => readsOrFails_capability (h.capability_history x hx).choose_spec) rfl fun _ _ => rfl

/-! ## What is accepted -/

/-- The header of an admitted image is the one that was written, and the records begin behind it. -/
theorem headerOf_uncut (h : r.Uncut) (ha : Admitted r.serialize) :
    headerOf r.put_content = (r.header, ⟨r.put_prefix ++ r.put_records, r.put_prefix.length, true⟩) := by
  have h₁ := reads_u32 kPersistMagic [] (put_u8 kPersistVersion ++ (put_authority r.authority ++
    (put_u64 r.next_boot ++ (put_u64 r.next_id ++ r.put_counts))) ++ r.put_records)
  have h₂ := reads_u8 kPersistVersion (put_u32 kPersistMagic) (put_authority r.authority ++
    (put_u64 r.next_boot ++ (put_u64 r.next_id ++ r.put_counts)) ++ r.put_records)
  have hok := ha.2.2.2
  rw [sealedContent_serialize, put_content_eq] at hok
  rw [put_content_eq]
  simp only [List.nil_append, List.length_nil, Nat.zero_add, List.append_assoc] at h₁ h₂
  unfold headerOf put_prefix at *
  simp only [List.append_assoc, List.length_append] at hok ⊢
  rw [h₁] at hok ⊢
  simp only [h₂] at hok ⊢
  rcases readsOrFails_header h with hreads | hfails
  · have h₃ := hreads (put_u32 kPersistMagic ++ put_u8 kPersistVersion) r.put_records
    simp only [List.append_assoc, List.length_append] at h₃
    rw [h₃]
    simp only [Nat.add_assoc]
  · have h₃ := hfails (put_u32 kPersistMagic ++ put_u8 kPersistVersion) r.put_records
    simp only [List.append_assoc, List.length_append] at h₃
    rw [h₃] at hok
    cases hok

/-- An image that is accepted holds the records that were written. -/
theorem imageRecords_uncut (hkey : wellKeyed.Holds r) (h : r.Uncut) (ha : Admitted r.serialize) (hc : Complete r.serialize) :
    (imageRecords r.serialize).2 = r.withRecords {} := by
  obtain ⟨c, hok, -⟩ := hc
  have hall := loadAll_loadsOrThrows hkey h.records {} r.put_prefix []
  simp only [List.append_nil] at hall
  simp only [imageRecords, sealedContent_serialize, headerOf_uncut h ha] at hok ⊢
  rcases hall with hall | ⟨e, t, hall⟩
  · exact congrArg Prod.snd hall
  · have herror := congrArg Prod.fst hall
    exact absurd (herror.symm.trans hok) (by simp)

/-- An image that is accepted restores the registry that it was taken of. -/
theorem load_from_uncut (hkey : wellKeyed.Holds r) (h : r.Uncut) (hok : (s.load_from r.serialize).Returns) :
    s.load_from r.serialize = (.ok (), r.recovered) ∧ r.Readable := by
  obtain ⟨ha, hc⟩ := (load_from_returns_iff s _).1 hok
  have hrecords := imageRecords_uncut hkey h ha hc
  have hread : (r.withRecords {}).Readable := hrecords ▸ imageRecords_readable ha
  have hrecovered : (imageRegistry r.serialize).recovered = r.recovered := by
    have hheader := restore_eq_recovered r.header (r.withRecords {}) {} rfl
    rw [imageRegistry, hrecords, sealedContent_serialize, headerOf_uncut h ha, ← hheader]
    exact restore_withRecords r {}
  refine ⟨by rw [load_from_accepted ha hc, hrecovered], ?_⟩
  exact { keyed := hkey, texts := { hread.texts with }, lists := { hread.lists with }, kinds := { hread.kinds with },
          sizes := { hread.sizes with } }

/-- Where no length is cut, the image of a reachable registry is accepted just where its
records are within the bounds of the decoder, and restores it. -/
theorem image_accepted_iff (hr : r.Reachable) (h : r.Uncut) (s : Registry) :
    ((s.load_from r.serialize).Returns ↔ r.Readable) ∧
      ((s.load_from r.serialize).Returns → (s.load_from r.serialize).2 = r.recovered) := by
  have hkey := wellKeyed_reachable hr
  refine ⟨⟨fun hok => (load_from_uncut hkey h hok).2, fun hread => ?_⟩, fun hok => ?_⟩
  · rw [load_from_serialize_restore hread]
    exact Outcome.returns_ok _ _
  · rw [(load_from_uncut hkey h hok).1]

theorem sample_uncut : Sample.registry.Uncut := by
  constructor
  case records =>
    refine RecordCondition.Holds.after uncut_stable (RecordCondition.holds_fresh _) ?_
    simp [Sample.setup, RecordCondition.Admits, uncut, Sample.service, Sample.incarnation, Short,
      ServiceDescriptor.Uncut, ServiceInstance.Uncut, SemanticVersion.Uncut, Provenance.Uncut]
  all_goals decide +kernel

theorem image_accepted_iff_sample :
    ((fresh.load_from Sample.registry.serialize).Returns ↔ Sample.registry.Readable) ∧
      ((fresh.load_from Sample.registry.serialize).Returns →
        (fresh.load_from Sample.registry.serialize).2 = Sample.registry.recovered) :=
  image_accepted_iff Sample.registry_reachable.reachable sample_uncut fresh

end Registry

end RuntimeRegistry
