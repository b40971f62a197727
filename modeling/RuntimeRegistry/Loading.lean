import RuntimeRegistry.Admission
import RuntimeRegistry.Bookkeeping
/-!
# What an accepted image is loaded as

The records of an accepted image are within the bounds of the decoder, whatever
bytes encode them. What `load_from` leaves is the recovered form of the registry
that the image holds, and nothing of the registry it was loaded into. Recovery
changes nothing that was recovered before, so the image of a loaded registry is
loaded as that registry.
-/
open Lib Lib.Reader Lib.Table

namespace RuntimeRegistry

namespace Registry

variable {r s : Registry} {data : List UInt8}

/-! ## The records of an image -/

/-- The record loops of an image start from a registry that meets every condition. -/
theorem holds_empty (I : RecordCondition) : I.Holds ({} : Registry) := by
  constructor <;> first | exact All.empty _ | exact fun _ h => nomatch h

theorem imageRecords_holds {I : RecordCondition} (hD : I.Decoded) (data : List UInt8) : I.Holds (imageRecords data).2 :=
  (holds_empty I).loadAll hD _ _

/-- A record loop keeps a property that storing a record which is not refused keeps. -/
theorem loadRecords_unrefused {ρ : Type} {P : Registry → Prop} {get : Reader ρ} {broken : String}
    {refuse : Registry → ρ → Option String} {store : ρ → Registry → Registry}
    (hstore : ∀ x s, refuse s x = none → P s → P (store x s)) (n : ℕ) (c : Cursor) (s : Registry) (h : P s) :
    P (loadRecords get broken refuse store n c s).2 := by
  induction n generalizing c s with
  | zero => exact h
  | succ n ih =>
    unfold loadRecords
    dsimp only
    split_ifs
    · exact h
    · split
      · exact h
      · exact ih _ _ (hstore _ _ ‹_› h)

/-- The byte of a named service kind is at most 16, and no other's is. -/
theorem service_kind_named {k : Enum ServiceKind} (h : ¬ k.toByte > 16) : k.Named := by
  cases k with
  | named e => exact Enum.named_named e
  | unnamed b hb =>
    have hle : b.toNat ≤ 16 := UInt8.le_iff_toNat_le.1 (UInt8.not_lt.1 h)
    exact absurd hb (by simp only [Enumerators.all, List.length_cons, List.length_nil]; omega)

theorem kindsNamed_of_services (h : All kindsNamed.service r.services) : kindsNamed.Holds r := by
  constructor
  case services => exact h
  all_goals
    intro x
    simp [kindsNamed]

/-- `load_from` refuses a service of an unnamed kind. -/
theorem imageRecords_kinds (data : List UInt8) : kindsNamed.Holds (imageRecords data).2 := by
  have hloop : ∀ {ρ : Type} {get : Reader ρ} {broken : String} {refuse : Registry → ρ → Option String}
      {store : ρ → Registry → Registry} (n : ℕ) (c : Cursor) (s : Registry),
      (∀ x s, (store x s).services = s.services) → All kindsNamed.service s.services →
      All kindsNamed.service (loadRecords get broken refuse store n c s).2.services := fun n c s hsame =>
    loadRecords_unrefused (P := fun s => All kindsNamed.service s.services) (fun x s _ h => by rwa [hsame]) n c s
  have hservices : ∀ n c s, All kindsNamed.service s.services →
      All kindsNamed.service (loadServices n c s).2.services := by
    refine loadRecords_unrefused (P := fun s => All kindsNamed.service s.services) fun x s hrefuse h => ?_
    refine h.insert (service_kind_named fun hbig => ?_)
    simp only [hbig, if_true] at hrefuse
    split_ifs at hrefuse
  have hall : ∀ n c s, All kindsNamed.service s.services → All kindsNamed.service (loadAll n c s).2.services := by
    intro n
    refine RecordCondition.Loading.next_keeps (P := fun s => All kindsNamed.service s.services)
      (fun c s => hservices _ c s) ?_
    iterate 16
      refine RecordCondition.Loading.next_keeps (P := fun s => All kindsNamed.service s.services)
        (fun c s => hloop _ c s fun _ _ => rfl) ?_
    exact fun c s => hloop _ c s fun _ _ => rfl
  dsimp only [imageRecords]
  exact kindsNamed_of_services (hall _ _ _ (All.empty _))

/-! ## The sizes of an image -/

/-- No count is larger than the maps may be. -/
structure Counts.Fit (n : Counts) : Prop where
  services : n.services ≤ 10000000
  instances : n.instances ≤ 10000000
  runtimes : n.runtimes ≤ 10000000
  rtinst : n.rtinst ≤ 10000000
  endpoints : n.endpoints ≤ 10000000
  protocols : n.protocols ≤ 10000000
  backends : n.backends ≤ 10000000
  devices : n.devices ≤ 10000000
  capabilities : n.capabilities ≤ 10000000
  nodes : n.nodes ≤ 10000000
  leases : n.leases ≤ 10000000
  tombstones : n.tombstones ≤ 10000000
  compat : n.compat ≤ 10000000
  invalidations : n.invalidations ≤ 10000000
  ih : n.ih ≤ 10000000
  rh : n.rh ≤ 10000000
  eh : n.eh ≤ 10000000
  ch : n.ch ≤ 10000000

theorem yields_counts_fit : Yields get_counts Counts.Fit :=
  .bind yields_rd_count fun _ h0 => .bind yields_rd_count fun _ h1 => .bind yields_rd_count fun _ h2 =>
  .bind yields_rd_count fun _ h3 => .bind yields_rd_count fun _ h4 => .bind yields_rd_count fun _ h5 =>
  .bind yields_rd_count fun _ h6 => .bind yields_rd_count fun _ h7 => .bind yields_rd_count fun _ h8 =>
  .bind yields_rd_count fun _ h9 => .bind yields_rd_count fun _ h10 => .bind yields_rd_count fun _ h11 =>
  .bind yields_rd_count fun _ h12 => .bind yields_rd_count fun _ h13 => .bind yields_rd_count fun _ h14 =>
  .bind yields_rd_count fun _ h15 => .bind yields_rd_count fun _ h16 => .bind yields_rd_count fun _ h17 =>
  .pure ⟨h0, h1, h2, h3, h4, h5, h6, h7, h8, h9, h10, h11, h12, h13, h14, h15, h16, h17⟩

/-- How much storing one record of each kind can add to a measure of the registry. -/
structure Grows (μ : Registry → ℕ) (d : Counts) : Prop where
  services : ∀ (x : ServiceDescriptor) s, μ { s with services := s.services.insert x.service_id x } ≤ μ s + d.services
  instances : ∀ (x : ServiceInstance) s, μ { s with instances := s.instances.insert x.instance_id x } ≤ μ s + d.instances
  runtimes : ∀ (x : RuntimeDescriptor) s, μ { s with runtimes := s.runtimes.insert x.runtime_id x } ≤ μ s + d.runtimes
  rtinst : ∀ (x : RuntimeDescriptor) s, μ { s with runtime_instances := s.runtime_instances.insert x.runtime_instance x } ≤ μ s + d.rtinst
  endpoints : ∀ (x : EndpointDescriptor) s, μ { s with endpoints := s.endpoints.insert x.endpoint_id x } ≤ μ s + d.endpoints
  protocols : ∀ (x : ProtocolDescriptor) s, μ { s with protocols := s.protocols.insert x.protocol_id x } ≤ μ s + d.protocols
  backends : ∀ (x : BackendDescriptor) s, μ { s with backends := s.backends.insert x.backend_id x } ≤ μ s + d.backends
  devices : ∀ (x : DeviceDescriptor) s, μ { s with devices := s.devices.insert x.device_id x } ≤ μ s + d.devices
  capabilities : ∀ (x : CapabilityDescriptor) s, μ { s with capabilities := s.capabilities.insert x.capability_id x } ≤ μ s + d.capabilities
  nodes : ∀ (x : NodeDescriptor) s, μ { s with nodes := s.nodes.insert x.node_id x } ≤ μ s + d.nodes
  leases : ∀ (x : LeaseDescriptor) s, μ { s with leases := s.leases.insert x.lease_id x } ≤ μ s + d.leases
  tombstones : ∀ (x : TombstoneRecord) s, μ { s with tombstones := s.tombstones.insert x.tombstone_id x } ≤ μ s + d.tombstones
  compat : ∀ (x : CompatibilityRecord) s, μ { s with compat_records := s.compat_records.insert x.compatibility_id x } ≤ μ s + d.compat
  invalidations : ∀ (x : InvalidationRecord) s, μ { s with invalidations := s.invalidations ++ [x] } ≤ μ s + d.invalidations
  ih : ∀ (x : ServiceInstance) s, μ { s with instance_history := s.instance_history ++ [x] } ≤ μ s + d.ih
  rh : ∀ (x : RuntimeDescriptor) s, μ { s with runtime_history := s.runtime_history ++ [x] } ≤ μ s + d.rh
  eh : ∀ (x : EndpointDescriptor) s, μ { s with endpoint_history := s.endpoint_history ++ [x] } ≤ μ s + d.eh
  ch : ∀ (x : CapabilityDescriptor) s, μ { s with capability_history := s.capability_history ++ [x] } ≤ μ s + d.ch

theorem loadRecords_grows {ρ : Type} {μ : Registry → ℕ} {get : Reader ρ} {broken : String}
    {refuse : Registry → ρ → Option String} {store : ρ → Registry → Registry} {k : ℕ}
    (hstore : ∀ x s, μ (store x s) ≤ μ s + k) (n : ℕ) (c : Cursor) (s : Registry) :
    μ (loadRecords get broken refuse store n c s).2 ≤ μ s + n * k := by
  induction n generalizing c s with
  | zero => exact Nat.le_add_right _ _
  | succ n ih =>
    unfold loadRecords
    dsimp only
    rw [Nat.succ_mul]
    split_ifs
    · exact Nat.le_add_right _ _
    · split
      · exact Nat.le_add_right _ _
      · have h₁ := hstore (get c).1 s
        have h₂ := ih (get c).2 (store (get c).1 s)
        omega

theorem next_grows {μ : Registry → ℕ} {f g : Loading} {k l : ℕ} (hf : ∀ c s, μ (f c s).2 ≤ μ s + k)
    (hg : ∀ c s, μ (g c s).2 ≤ μ s + l) (c : Cursor) (s : Registry) : μ (f.next g c s).2 ≤ μ s + (k + l) := by
  have h₁ := hf c s
  unfold Loading.next
  rcases hc : f c s with ⟨e | c', s'⟩ <;> rw [hc] at h₁
  · exact h₁.trans (by omega)
  · have h₂ := hg c' s'
    dsimp only [Outcome.andThen_ok] at h₁ ⊢
    omega

/-- The loops add to a measure what their records do. -/
theorem loadAll_grows {μ : Registry → ℕ} {d : Counts} (h : Grows μ d) (n : Counts) (c : Cursor) (s : Registry) :
    μ (loadAll n c s).2 ≤ μ s + (n.services * d.services + (n.instances * d.instances + (n.runtimes * d.runtimes + (n.rtinst * d.rtinst +
      (n.endpoints * d.endpoints + (n.protocols * d.protocols + (n.backends * d.backends + (n.devices *
      d.devices + (n.capabilities * d.capabilities + (n.nodes * d.nodes + (n.leases * d.leases + (n.tombstones *
      d.tombstones + (n.compat * d.compat + (n.invalidations * d.invalidations + (n.ih * d.ih + (n.rh * d.rh +
      (n.eh * d.eh + (n.ch * d.ch)))))))))))))))))) := by
  unfold loadAll
  refine next_grows (loadRecords_grows h.services _) ?_ _ _
  refine next_grows (loadRecords_grows h.instances _) ?_
  refine next_grows (loadRecords_grows h.runtimes _) ?_
  refine next_grows (loadRecords_grows h.rtinst _) ?_
  refine next_grows (loadRecords_grows h.endpoints _) ?_
  refine next_grows (loadRecords_grows h.protocols _) ?_
  refine next_grows (loadRecords_grows h.backends _) ?_
  refine next_grows (loadRecords_grows h.devices _) ?_
  refine next_grows (loadRecords_grows h.capabilities _) ?_
  refine next_grows (loadRecords_grows h.nodes _) ?_
  refine next_grows (loadRecords_grows h.leases _) ?_
  refine next_grows (loadRecords_grows h.tombstones _) ?_
  refine next_grows (loadRecords_grows h.compat _) ?_
  refine next_grows (loadRecords_grows h.invalidations _) ?_
  refine next_grows (loadRecords_grows h.ih _) ?_
  refine next_grows (loadRecords_grows h.rh _) ?_
  refine next_grows (loadRecords_grows h.eh _) ?_
  exact loadRecords_grows h.ch _

/-- No record. -/
def noRecords : Counts := ⟨0, 0, 0, 0, 0, 0, 0, 0, 0, 0, 0, 0, 0, 0, 0, 0, 0, 0⟩

theorem size_insert_le {tag : IdTag} {ρ : Type} (m : Map tag ρ) (k : Id tag) (x : ρ) :
    (m.insert k x).size ≤ m.size + 1 := Std.ExtTreeMap.size_insert_le

theorem length_push_le {α : Type} (xs : List α) (x : α) : (xs ++ [x]).length ≤ xs.length + 1 := by
  rw [List.length_append, List.length_singleton]

/-- An image holds at most as many records of a kind as it can count. -/
theorem imageRecords_sizes (h : Admitted data) : (imageRecords data).2.SizesFit := by
  have hcounts : Yields get_header fun h => h.counts.Fit :=
    .skip fun _ => .skip fun _ => .skip fun _ => .bind yields_counts_fit fun _ h => .pure h
  have hn : (headerOf (sealedContent data)).1.counts.Fit := hcounts _ h.2.2.2
  have hfit : ∀ (μ : Registry → ℕ) (d : Counts) n c s, Grows μ d → μ s = 0 → (n.services * d.services + (n.instances * d.instances + (n.runtimes * d.runtimes + (n.rtinst * d.rtinst +
      (n.endpoints * d.endpoints + (n.protocols * d.protocols + (n.backends * d.backends + (n.devices *
      d.devices + (n.capabilities * d.capabilities + (n.nodes * d.nodes + (n.leases * d.leases + (n.tombstones *
      d.tombstones + (n.compat * d.compat + (n.invalidations * d.invalidations + (n.ih * d.ih + (n.rh * d.rh +
      (n.eh * d.eh + (n.ch * d.ch)))))))))))))))))) ≤ 10000000 →
      μ (loadAll n c s).2 ≤ 10000000 := by
    intro μ d n c s hg h0 hle
    have hgrows := loadAll_grows hg n c s
    rw [h0, Nat.zero_add] at hgrows
    exact hgrows.trans hle
  dsimp only [imageRecords]
  generalize headerOf (sealedContent data) = header at hn
  obtain ⟨_, _, _, _, _, _, _, _, _, _, _, _, _, _, _, _, _, _⟩ := hn
  refine ⟨
    hfit (fun s => s.services.size) { noRecords with services := 1 } _ _ _ ?_ rfl ?_,
    hfit (fun s => s.instances.size) { noRecords with instances := 1 } _ _ _ ?_ rfl ?_,
    hfit (fun s => s.runtimes.size) { noRecords with runtimes := 1 } _ _ _ ?_ rfl ?_,
    hfit (fun s => s.runtime_instances.size) { noRecords with rtinst := 1 } _ _ _ ?_ rfl ?_,
    hfit (fun s => s.endpoints.size) { noRecords with endpoints := 1 } _ _ _ ?_ rfl ?_,
    hfit (fun s => s.protocols.size) { noRecords with protocols := 1 } _ _ _ ?_ rfl ?_,
    hfit (fun s => s.backends.size) { noRecords with backends := 1 } _ _ _ ?_ rfl ?_,
    hfit (fun s => s.devices.size) { noRecords with devices := 1 } _ _ _ ?_ rfl ?_,
    hfit (fun s => s.capabilities.size) { noRecords with capabilities := 1 } _ _ _ ?_ rfl ?_,
    hfit (fun s => s.nodes.size) { noRecords with nodes := 1 } _ _ _ ?_ rfl ?_,
    hfit (fun s => s.leases.size) { noRecords with leases := 1 } _ _ _ ?_ rfl ?_,
    hfit (fun s => s.tombstones.size) { noRecords with tombstones := 1 } _ _ _ ?_ rfl ?_,
    hfit (fun s => s.compat_records.size) { noRecords with compat := 1 } _ _ _ ?_ rfl ?_,
    hfit (fun s => s.invalidations.length) { noRecords with invalidations := 1 } _ _ _ ?_ rfl ?_,
    hfit (fun s => s.instance_history.length) { noRecords with ih := 1 } _ _ _ ?_ rfl ?_,
    hfit (fun s => s.runtime_history.length) { noRecords with rh := 1 } _ _ _ ?_ rfl ?_,
    hfit (fun s => s.endpoint_history.length) { noRecords with eh := 1 } _ _ _ ?_ rfl ?_,
    hfit (fun s => s.capability_history.length) { noRecords with ch := 1 } _ _ _ ?_ rfl ?_⟩
  all_goals first
    | simpa [noRecords]
    | constructor <;> intro x s <;> first | exact le_rfl | exact size_insert_le _ _ _ | exact length_push_le _ _

theorem imageRecords_readable (h : Admitted data) : (imageRecords data).2.Readable where
  keyed := imageRecords_holds wellKeyed_decoded data
  texts := imageRecords_holds textsFit_decoded data
  lists := imageRecords_holds listsFit_decoded data
  kinds := imageRecords_kinds data
  sizes := imageRecords_sizes h

/-! ## The registry of an image -/

/-- The registry that the image holds: its records under the counters of its header. -/
def imageRegistry (data : List UInt8) : Registry :=
  let header := (headerOf (sealedContent data)).1
  { (imageRecords data).2 with authority := header.authority, next_boot := header.next_boot, next_id := header.next_id }

/-- The two have the same records. -/
theorem Readable.of_records {r : Registry} (h : r.Readable) (a : RegistryAuthority) (next_boot next_id : UInt64) :
    { r with authority := a, next_boot := next_boot, next_id := next_id }.Readable where
  keyed := { h.keyed with }
  texts := { h.texts with }
  lists := { h.lists with }
  kinds := { h.kinds with }
  sizes := { h.sizes with }

theorem imageRegistry_readable (h : Admitted data) : (imageRegistry data).Readable :=
  (imageRecords_readable h).of_records _ _ _

/-- The last lines of `load_from` look at nothing of the header but its counters,
and at nothing of the old registry. -/
theorem restore_eq_recovered (header : Header) (r s : Registry) (hcleared : counters header.authority = header.authority) :
    restore header (r.withRecords s) =
      { r with authority := header.authority, next_boot := header.next_boot, next_id := header.next_id }.recovered := by
  have h := restore_withRecords
    { r with authority := header.authority, next_boot := header.next_boot, next_id := header.next_id } s
  rw [← h]
  unfold restore Registry.header withRecords
  rw [hcleared]

/-- An accepted image leaves the recovered form of its registry, whatever it is loaded into. -/
theorem load_from_accepted (ha : Admitted data) (hc : Complete data) (s : Registry) :
    s.load_from data = (.ok (), (imageRegistry data).recovered) := by
  obtain ⟨c, hok, hcok, hpos⟩ := hc
  have hcleared : counters (headerOf (sealedContent data)).1.authority = (headerOf (sealedContent data)).1.authority := by
    obtain ⟨h₁, h₂, h₃⟩ := header_incarnations (sealedContent data)
    rw [counters, ← h₁, ← h₂, ← h₃]
  rw [load_from_admitted ha, hok, imageRegistry]
  simp only [Outcome.andThen_ok, hcok, hpos, Bool.not_true, Bool.false_eq_true, ne_eq, not_true, if_false]
  rw [restore_eq_recovered _ _ _ hcleared]

/-! ## What was recovered stays -/

theorem revalidateInstance_idem (inst : ServiceInstance) :
    revalidateInstance (revalidateInstance inst) = revalidateInstance inst := by
  unfold revalidateInstance
  split_ifs <;> simp_all

theorem revalidateEndpoint_idem (ep : EndpointDescriptor) :
    revalidateEndpoint (revalidateEndpoint ep) = revalidateEndpoint ep := by
  unfold revalidateEndpoint
  split_ifs <;> simp_all

theorem revalidateCapability_idem (cap : CapabilityDescriptor) :
    revalidateCapability (revalidateCapability cap) = revalidateCapability cap := by
  unfold revalidateCapability
  split_ifs <;> simp_all

theorem revalidateLease_idem (lease : LeaseDescriptor) : revalidateLease (revalidateLease lease) = revalidateLease lease := by
  unfold revalidateLease
  split_ifs <;> simp_all

theorem map_idem {tag : IdTag} {ρ : Type} {f : ρ → ρ} (hf : ∀ x, f (f x) = f x) (m : Map tag ρ) :
    (m.map fun _ => f).map (fun _ => f) = m.map fun _ => f := by
  apply Std.ExtTreeMap.ext_getElem?
  intro k
  rw [Std.ExtTreeMap.getElem?_map, Std.ExtTreeMap.getElem?_map]
  rcases m[k]? with _ | x
  · rfl
  · exact congrArg some (hf x)

/-- A registry whose records were recovered before, under cleared counters. -/
theorem recovered_eq {r : Registry} (ha : counters r.authority = r.authority)
    (hi : (r.instances.map fun _ => revalidateInstance) = r.instances)
    (he : (r.endpoints.map fun _ => revalidateEndpoint) = r.endpoints)
    (hc : (r.capabilities.map fun _ => revalidateCapability) = r.capabilities)
    (hl : (r.leases.map fun _ => revalidateLease) = r.leases) :
    r.recovered = { r.rebuild_indexes with accounting := r.rebuild_indexes.rebuiltAccounting } := by
  have hsame : { r.begin_coordinator_epoch with
      authority := { r.begin_coordinator_epoch.authority with epoch := r.authority.epoch } } = r := by
    unfold begin_coordinator_epoch
    rw [hi, he, hc, hl]
    change { r with authority := counters r.authority } = r
    rw [ha]
  rw [recovered, hsame]

theorem rebuild_indexes_idem (r : Registry) : r.rebuild_indexes.rebuild_indexes = r.rebuild_indexes := by
  obtain ⟨a, b, c, d, h⟩ := r.rebuild_indexes_writes
  have hforget : { r with index_by_kind := a, index_by_service := b, index_by_boot := c, index_by_node := d }.rebuild_indexes =
      r.rebuild_indexes := rfl
  rw [h, hforget, h]

/-- What recovery writes: the authority, the four maps it validates again, the
accounting and the indexes. -/
theorem recovered_writes (r : Registry) : ∃ accounting index_by_kind index_by_service index_by_boot index_by_node,
    r.recovered = { r with
      authority := counters r.authority
      instances := r.instances.map fun _ => revalidateInstance
      endpoints := r.endpoints.map fun _ => revalidateEndpoint
      capabilities := r.capabilities.map fun _ => revalidateCapability
      leases := r.leases.map fun _ => revalidateLease
      accounting := accounting, index_by_kind := index_by_kind, index_by_service := index_by_service
      index_by_boot := index_by_boot, index_by_node := index_by_node } := by
  have hr : r.recovered = { { r.begin_coordinator_epoch with authority := counters r.authority }.rebuild_indexes with
      accounting := { r.begin_coordinator_epoch with authority := counters r.authority }.rebuild_indexes.rebuiltAccounting } := rfl
  obtain ⟨_, _, _, _, hw⟩ := rebuild_indexes_writes { r.begin_coordinator_epoch with authority := counters r.authority }
  rw [hr, hw]
  exact ⟨_, _, _, _, _, rfl⟩

/-- The indexes of a recovered registry are the ones its records give. -/
theorem rebuild_indexes_recovered (r : Registry) : r.recovered.rebuild_indexes = r.recovered := by
  have hr : r.recovered = { { r.begin_coordinator_epoch with authority := counters r.authority }.rebuild_indexes with
      accounting := { r.begin_coordinator_epoch with authority := counters r.authority }.rebuild_indexes.rebuiltAccounting } := rfl
  rw [hr, rebuild_indexes_accounting, rebuild_indexes_idem]

/-- Recovery of a recovered registry changes nothing. -/
theorem recovered_idem (r : Registry) : r.recovered.recovered = r.recovered := by
  obtain ⟨_, _, _, _, _, hw⟩ := r.recovered_writes
  rw [recovered_eq (by rw [hw]; rfl) (by rw [hw]; exact map_idem revalidateInstance_idem _)
    (by rw [hw]; exact map_idem revalidateEndpoint_idem _) (by rw [hw]; exact map_idem revalidateCapability_idem _)
    (by rw [hw]; exact map_idem revalidateLease_idem _), rebuild_indexes_recovered]
  have hr : r.recovered = { { r.begin_coordinator_epoch with authority := counters r.authority }.rebuild_indexes with
      accounting := { r.begin_coordinator_epoch with authority := counters r.authority }.rebuild_indexes.rebuiltAccounting } := rfl
  rw [hr]
  rfl

theorem Readable.recovered {r : Registry} (h : r.Readable) : r.recovered.Readable := by
  have hsizes : r.recovered.SizesFit := by
    rw [← restore_withRecords r r]
    unfold restore
    dsimp only
    obtain ⟨_, _, _, _, hw⟩ := rebuild_indexes_writes { r.withRecords r with
      authority := r.header.authority, next_boot := r.header.next_boot, next_id := r.header.next_id
      instances := (r.withRecords r).instances.map fun _ => recoverInstance
      endpoints := (r.withRecords r).endpoints.map fun _ => recoverEndpoint
      capabilities := (r.withRecords r).capabilities.map fun _ => recoverCapability
      leases := (r.withRecords r).leases.map fun _ => recoverLease }
    rw [hw]
    exact { h.sizes with
      instances := by rw [Std.ExtTreeMap.size_map]; exact h.sizes.instances
      endpoints := by rw [Std.ExtTreeMap.size_map]; exact h.sizes.endpoints
      capabilities := by rw [Std.ExtTreeMap.size_map]; exact h.sizes.capabilities
      leases := by rw [Std.ExtTreeMap.size_map]; exact h.sizes.leases }
  have hrestore : ∀ {I : RecordCondition}, I.Stable → I.Holds r → I.Holds r.recovered := by
    intro I hI hr
    rw [← restore_withRecords r r]
    have hw : I.Holds (r.withRecords r) := { hr with }
    exact hw.restore hI _
  exact ⟨hrestore wellKeyed_stable h.keyed, hrestore textsFit_stable h.texts, hrestore listsFit_stable h.lists,
    hrestore kindsNamed_stable h.kinds, hsizes⟩

/-- An accepted image is loaded as the same registry into any other, and the image
of that registry is loaded as the registry itself. -/
theorem load_from_canonical (h : (r.load_from data).Returns) :
    let t := (r.load_from data).2
    (∀ s : Registry, s.load_from data = (.ok (), t)) ∧
      ∀ s : Registry, s.load_from t.serialize = (.ok (), t) ∧ (s.load_from t.serialize).2.serialize = t.serialize := by
  obtain ⟨ha, hc⟩ := (load_from_returns_iff r data).1 h
  have hall : ∀ s : Registry, s.load_from data = (.ok (), (imageRegistry data).recovered) := load_from_accepted ha hc
  have hreadable := (imageRegistry_readable ha).recovered
  have hstay := recovered_idem (imageRegistry data)
  rw [hall r]
  generalize (imageRegistry data).recovered = t at hall hreadable hstay
  have hagain : ∀ s : Registry, s.load_from t.serialize = (.ok (), t) := by
    intro s
    rw [load_from_serialize_restore hreadable, restore_withRecords, hstay]
  refine ⟨hall, fun s => ⟨hagain s, ?_⟩⟩
  rw [hagain s]

/-- The image of the sample. -/
theorem load_from_canonical_sample :
    let t := (fresh.load_from Sample.registry.serialize).2
    (∀ s : Registry, s.load_from Sample.registry.serialize = (.ok (), t)) ∧
      ∀ s : Registry, s.load_from t.serialize = (.ok (), t) ∧ (s.load_from t.serialize).2.serialize = t.serialize :=
  load_from_canonical (by rw [load_from_serialize_restore sample_readable]; exact Outcome.returns_ok _ _)

end Registry

end RuntimeRegistry
