import RuntimeRegistry.RoundTrip
/-!
# Recovery

`load_from` of an image gives back the registry that was serialized, with what was
live to be validated again. `Loads` is to a loading step what `Reads` is to a
reader: the records of a map are read in the order of their keys, and inserting
them one by one rebuilds the map.
-/
open Lib Lib.Reader Lib.Table

namespace RuntimeRegistry

namespace Registry

/-! ## Loading steps -/

/-- Wherever `bytes` stand, the step reads them and nothing else, and takes `r` to `t`. -/
def Loads (f : Loading) (bytes : List UInt8) (r t : Registry) : Prop :=
  ∀ pre post, f ⟨pre ++ (bytes ++ post), pre.length, true⟩ r =
    (.ok ⟨pre ++ (bytes ++ post), pre.length + bytes.length, true⟩, t)

theorem Loads.next {f g : Loading} {bytes rest : List UInt8} {r s t : Registry} (hf : Loads f bytes r s)
    (hg : Loads g rest s t) : Loads (f.next g) (bytes ++ rest) r t := by
  intro pre post
  have h₁ := hf pre (rest ++ post)
  have h₂ := hg (pre ++ bytes) post
  simp only [List.append_assoc, List.length_append] at h₁ h₂ ⊢
  rw [Loading.next, h₁, Outcome.andThen_ok, h₂, Nat.add_assoc]

section
variable {ρ : Type} {get : Reader ρ} {put : ρ → List UInt8} {broken : String} {refuse : Registry → ρ → Option String}
  {store : ρ → Registry → Registry} {r : Registry}

/-- The loop over records that the state refuses none of. -/
theorem loadRecords_loads {xs : List ρ} (hget : ∀ x ∈ xs, Reads get (put x) x)
    (hrefuse : ∀ as x bs, xs = as ++ x :: bs → refuse (as.foldl (fun r x => store x r) r) x = none) :
    Loads (loadRecords get broken refuse store xs.length) (xs.flatMap put) r (xs.foldl (fun r x => store x r) r) := by
  induction xs generalizing r with
  | nil => intro pre post; rfl
  | cons x xs ih =>
    rw [List.forall_mem_cons] at hget
    have hrest := ih hget.2 (r := store x r) fun as y bs h => hrefuse (x :: as) y bs (by rw [h]; rfl)
    intro pre post
    have h₁ := hget.1 pre (xs.flatMap put ++ post)
    have h₂ := hrest (pre ++ put x) post
    have hx : refuse r x = none := hrefuse [] x xs rfl
    simp only [List.flatMap_cons, List.append_assoc, List.length_append, List.length_cons] at h₁ h₂ ⊢
    simp only [loadRecords, h₁, hx, h₂, Bool.not_true, Bool.false_eq_true, if_false, List.foldl_cons, Nat.add_assoc]

/-- Storing records one by one appends them to the list. -/
theorem foldl_append_store (set : List ρ → Registry → Registry) {xs : List ρ} (hempty : set [] r = r)
    (hstore : ∀ x ys, store x (set ys r) = set (ys ++ [x]) r) : xs.foldl (fun r x => store x r) r = set xs r := by
  have hfold : ∀ ys zs, zs.foldl (fun r x => store x r) (set ys r) = set (ys ++ zs) r := by
    intro ys zs
    induction zs generalizing ys with
    | nil => simp
    | cons z zs ih => rw [List.foldl_cons, hstore, ih, List.append_assoc]; rfl
  have h := hfold [] xs
  rwa [List.nil_append, hempty] at h

theorem loadList_loads (set : List ρ → Registry → Registry) {xs : List ρ} (hget : ∀ x ∈ xs, Reads get (put x) x)
    (hempty : set [] r = r) (hstore : ∀ x ys, store x (set ys r) = set (ys ++ [x]) r) :
    Loads (loadList get broken store xs.length) (xs.flatMap put) r (set xs r) := by
  rw [← foldl_append_store set hempty hstore]
  exact loadRecords_loads hget fun _ _ _ _ => rfl

variable {tag : IdTag} {m : Map tag ρ} {key : ρ → Id tag}

/-- The keys of a table come in the order the image lists its records in. -/
theorem serialize_sorted_keys (m : Map tag ρ) (put : ρ → List UInt8) :
    serialize_sorted m.keys m put = (values m).flatMap put := by
  have hsorted : m.keys.Pairwise fun a b => a.value ≤ b.value := by
    refine m.ordered_keys.imp fun {a b} h => ?_
    have hlt : a.value < b.value := compareOfLessAndEq_eq_lt.1 h
    exact UInt64.le_of_lt hlt
  have hsort : m.keys.insertionSort (fun a b => a.value ≤ b.value) = m.keys := hsorted.insertionSort_eq
  rw [serialize_sorted, hsort, ← Std.ExtTreeMap.map_fst_toList_eq_keys, values, List.flatMap_map, List.flatMap_map]
  refine List.flatMap_congr fun kx hkx => ?_
  rw [Std.ExtTreeMap.mem_toList_iff_getElem?_eq_some.1 hkx]
  rfl

/-- Storing records one by one fills the table of them. -/
theorem foldl_store {set : Map tag ρ → Registry → Registry} (xs : List ρ) (m : Map tag ρ)
    (hstore : ∀ x m', store x (set m' r) = set (m'.insert (key x) x) r) :
    xs.foldl (fun r x => store x r) (set m r) = set (build key xs m) r := by
  induction xs generalizing m with
  | nil => rfl
  | cons x xs ih =>
    rw [List.foldl_cons, hstore, ih]
    rfl

/-- A table whose records know their keys is read back. -/
theorem loadTable_loads (set : Map tag ρ → Registry → Registry) (hget : All (fun _ x => Reads get (put x) x) m)
    (hkey : All (fun k x => key x = k) m)
    (hempty : set ∅ r = r) (hrefuse : All (fun _ x => ∀ m', key x ∉ m' → refuse (set m' r) x = none) m)
    (hstore : ∀ x m', store x (set m' r) = set (m'.insert (key x) x) r) :
    Loads (loadRecords get broken refuse store m.size) (serialize_sorted m.keys m put) r (set m r) := by
  have hfold : ∀ (xs : List ρ) m', xs.foldl (fun r x => store x r) (set m' r) = set (build key xs m') r :=
    fun xs m' => foldl_store xs m' hstore
  have hnodup : ((values m).map key).Nodup := by
    rw [map_key_values hkey]
    exact m.nodup_keys
  have hreads : ∀ x ∈ values m, Reads get (put x) x := fun x hx => (mem_values.1 hx).elim fun k hk => hget k x hk
  have hset : (values m).foldl (fun r x => store x r) r = set m r := by
    have h := hfold (values m) ∅
    rwa [build_values hkey, hempty] at h
  rw [serialize_sorted_keys, ← length_values, ← hset]
  refine loadRecords_loads hreads fun as x bs hxs => ?_
  obtain ⟨k, hk⟩ := mem_values.1 (show x ∈ values m by rw [hxs]; simp)
  rw [← hempty, hfold]
  refine hrefuse k x hk _ ?_
  rw [hxs, List.map_append, List.map_cons] at hnodup
  have hnot : key x ∉ as.map key := fun hx => (List.nodup_append.1 hnodup).2.2 _ hx _ List.mem_cons_self rfl
  rw [Std.ExtTreeMap.mem_iff_isSome_getElem?, build_getElem?_of_notMem _ hnot]
  simp

end

/-! ## The header -/

/-- The authority state that an image keeps: the counters, and no incarnation. -/
def counters (a : RegistryAuthority) : RegistryAuthority := { a with current_boot := ∅, live_boots := ∅, boot_worker := ∅ }

theorem reads_authority (a : RegistryAuthority) : Reads get_authority (put_authority a) (counters a) := by
  unfold put_authority
  simp only [List.append_assoc]
  exact (reads_gen _).bind <| (reads_gen _).bind <| (reads_gen _).bind <| (reads_gen _).bind <| (reads_gen _).bind <|
    (reads_gen _).bind <| (reads_gen _).bind <| (reads_gen _).bind <| (reads_gen _).bind <| (reads_gen _).bind <|
    (reads_gen _).bind <| (reads_gen _).bind <| (reads_gen _).bind <| (reads_gen _).bind <| (reads_gen _).bind <|
    (reads_gen _).bind <| (reads_gen _).map _

theorem reads_count {n : ℕ} (h : n ≤ 10000000) : Reads rd_count (put_count n) n := by
  have hn : (UInt32.ofNat n).toNat = n := by
    rw [UInt32.toNat_ofNat']
    exact Nat.mod_eq_of_lt (by omega)
  have hmax : ¬ UInt32.ofNat n > kMaxRecordsPerMap := by
    rw [gt_iff_lt, UInt32.lt_iff_toNat_lt, hn]
    exact not_lt.2 h
  have hrest : Reads (if UInt32.ofNat n > kMaxRecordsPerMap then do fail; return (UInt32.ofNat n).toNat
      else return (UInt32.ofNat n).toNat) [] n := by
    rw [if_neg hmax, hn]
    exact .pure n
  have hread := (reads_u32 (UInt32.ofNat n)).bind (f := fun c => if c > kMaxRecordsPerMap then do fail; return c.toNat
    else return c.toNat) hrest
  rwa [List.append_nil] at hread

/-- The counts of a registry. -/
def counts (r : Registry) : Counts where
  services := r.services.size
  instances := r.instances.size
  runtimes := r.runtimes.size
  rtinst := r.runtime_instances.size
  endpoints := r.endpoints.size
  protocols := r.protocols.size
  backends := r.backends.size
  devices := r.devices.size
  capabilities := r.capabilities.size
  nodes := r.nodes.size
  leases := r.leases.size
  tombstones := r.tombstones.size
  compat := r.compat_records.size
  invalidations := r.invalidations.length
  ih := r.instance_history.length
  rh := r.runtime_history.length
  eh := r.endpoint_history.length
  ch := r.capability_history.length

theorem reads_counts {r : Registry} (h : r.SizesFit) : Reads get_counts r.put_counts r.counts := by
  unfold put_counts
  simp only [List.append_assoc]
  exact (reads_count h.services).bind <| (reads_count h.instances).bind <| (reads_count h.runtimes).bind <|
    (reads_count h.runtime_instances).bind <| (reads_count h.endpoints).bind <| (reads_count h.protocols).bind <|
    (reads_count h.backends).bind <| (reads_count h.devices).bind <| (reads_count h.capabilities).bind <|
    (reads_count h.nodes).bind <| (reads_count h.leases).bind <| (reads_count h.tombstones).bind <|
    (reads_count h.compat_records).bind <| (reads_count h.invalidations).bind <|
    (reads_count h.instance_history).bind <| (reads_count h.runtime_history).bind <|
    (reads_count h.endpoint_history).bind <| (reads_count h.capability_history).map _

/-- The header of the image of a registry. -/
def header (r : Registry) : Header where
  authority := counters r.authority
  next_boot := r.next_boot
  next_id := r.next_id
  counts := r.counts

theorem reads_header {r : Registry} (h : r.SizesFit) :
    Reads get_header (put_authority r.authority ++ (put_u64 r.next_boot ++ (put_u64 r.next_id ++ r.put_counts))) r.header :=
  (reads_authority _).bind <| (reads_u64 _).bind <| (reads_u64 _).bind <| (reads_counts h).map _

/-! ## The records -/

/-- The registry `s` with the record maps and vectors of `r`. -/
def withRecords (r s : Registry) : Registry :=
  { s with
    services := r.services, instances := r.instances, runtimes := r.runtimes, runtime_instances := r.runtime_instances
    endpoints := r.endpoints, protocols := r.protocols, backends := r.backends, devices := r.devices
    capabilities := r.capabilities, nodes := r.nodes, leases := r.leases, tombstones := r.tombstones
    compat_records := r.compat_records, invalidations := r.invalidations, instance_history := r.instance_history
    runtime_history := r.runtime_history, endpoint_history := r.endpoint_history
    capability_history := r.capability_history }

/-- What the records of a registry must be to be read back. -/
structure Readable (r : Registry) : Prop where
  keyed : wellKeyed.Holds r
  texts : textsFit.Holds r
  lists : listsFit.Holds r
  kinds : kindsNamed.Holds r
  sizes : r.SizesFit

theorem service_kind_small {k : Enum ServiceKind} (h : k.Named) : ¬ k.toByte > 16 := by
  obtain ⟨e, rfl⟩ := h
  cases e <;> decide

/-- The refusal of a repeated key. -/
theorem repeated_refuse {tag : IdTag} {ρ : Type} {key : ρ → Id tag} {duplicate : String} {m : Map tag ρ} :
    All (fun _ x => ∀ m' : Map tag ρ, key x ∉ m' → (if key x ∈ m' then some duplicate else none) = none) m :=
  fun _ _ _ _ h => if_neg h

theorem loadServices_loads {r : Registry} (h : r.Readable) (s : Registry) :
    Loads (loadServices r.services.size) (serialize_sorted r.services.keys r.services put_servicedesc) s.cleared
      { s.cleared with services := r.services } :=
  loadTable_loads (fun m s => { s with services := m })
    (fun k x hx => reads_servicedesc (h.texts.services k x hx) (h.lists.services k x hx)) h.keyed.services rfl
    (fun k x hx m' hm' => by simp [hm', service_kind_small (h.kinds.services k x hx)]) fun _ _ => rfl

theorem loadAll_loads {r : Registry} (h : r.Readable) (s : Registry) :
    Loads (loadAll r.counts) r.put_records s.cleared (r.withRecords s) := by
  unfold put_records
  simp only [List.append_assoc]
  refine .next (loadServices_loads h s) ?_
  refine .next (loadTable_loads (fun m s => { s with instances := m })
    (fun k x hx => reads_instance (h.texts.instances k x hx) (h.lists.instances k x hx)) h.keyed.instances
    rfl repeated_refuse fun _ _ => rfl) ?_
  refine .next (loadTable_loads (fun m s => { s with runtimes := m })
    (fun k x hx => reads_runtime (h.texts.runtimes k x hx) (h.lists.runtimes k x hx)) h.keyed.runtimes
    rfl repeated_refuse fun _ _ => rfl) ?_
  refine .next (loadTable_loads (fun m s => { s with runtime_instances := m })
    (fun k x hx => reads_runtime (h.texts.runtime_instances k x hx) (h.lists.runtime_instances k x hx))
    h.keyed.runtime_instances rfl repeated_refuse fun _ _ => rfl) ?_
  refine .next (loadTable_loads (fun m s => { s with endpoints := m })
    (fun k x hx => reads_endpoint (h.texts.endpoints k x hx)) h.keyed.endpoints rfl repeated_refuse fun _ _ => rfl) ?_
  refine .next (loadTable_loads (fun m s => { s with protocols := m })
    (fun k x hx => reads_protocol (h.texts.protocols k x hx) (h.lists.protocols k x hx)) h.keyed.protocols
    rfl repeated_refuse fun _ _ => rfl) ?_
  refine .next (loadTable_loads (fun m s => { s with backends := m })
    (fun k x hx => reads_backend (h.texts.backends k x hx) (h.lists.backends k x hx)) h.keyed.backends
    rfl repeated_refuse fun _ _ => rfl) ?_
  refine .next (loadTable_loads (fun m s => { s with devices := m })
    (fun k x hx => reads_device (h.texts.devices k x hx)) h.keyed.devices rfl repeated_refuse fun _ _ => rfl) ?_
  refine .next (loadTable_loads (fun m s => { s with capabilities := m })
    (fun k x hx => reads_capability (h.texts.capabilities k x hx) (h.lists.capabilities k x hx)) h.keyed.capabilities
    rfl repeated_refuse fun _ _ => rfl) ?_
  refine .next (loadTable_loads (fun m s => { s with nodes := m })
    (fun k x hx => reads_node (h.texts.nodes k x hx) (h.lists.nodes k x hx)) h.keyed.nodes
    rfl repeated_refuse fun _ _ => rfl) ?_
  refine .next (loadTable_loads (fun m s => { s with leases := m })
    (fun k x hx => reads_lease (h.texts.leases k x hx)) h.keyed.leases rfl repeated_refuse fun _ _ => rfl) ?_
  refine .next (loadTable_loads (fun m s => { s with tombstones := m })
    (fun k x hx => reads_tombstone (h.texts.tombstones k x hx)) h.keyed.tombstones rfl repeated_refuse fun _ _ => rfl) ?_
  refine .next (loadTable_loads (fun m s => { s with compat_records := m })
    (fun k x hx => reads_compat (h.texts.compat_records k x hx)) h.keyed.compat_records
    rfl repeated_refuse fun _ _ => rfl) ?_
  refine .next (loadList_loads (fun xs s => { s with invalidations := xs })
    (fun x hx => reads_invalidation (h.texts.invalidations x hx)) rfl fun _ _ => rfl) ?_
  refine .next (loadList_loads (fun xs s => { s with instance_history := xs })
    (fun x hx => reads_instance (h.texts.instance_history x hx).choose_spec (h.lists.instance_history x hx).choose_spec)
    rfl fun _ _ => rfl) ?_
  refine .next (loadList_loads (fun xs s => { s with runtime_history := xs })
    (fun x hx => reads_runtime (h.texts.runtime_history x hx).choose_spec (h.lists.runtime_history x hx).choose_spec)
    rfl fun _ _ => rfl) ?_
  refine .next (loadList_loads (fun xs s => { s with endpoint_history := xs })
    (fun x hx => reads_endpoint (h.texts.endpoint_history x hx).choose_spec) rfl fun _ _ => rfl) ?_
  exact loadList_loads (fun xs s => { s with capability_history := xs })
    (fun x hx => reads_capability (h.texts.capability_history x hx).choose_spec
      (h.lists.capability_history x hx).choose_spec) rfl fun _ _ => rfl

/-! ## The trailer -/

/-- A sealed image passes the checks of its trailer. -/
theorem load_from_withTrailer (s : Registry) {content : List UInt8} (h : 10 ≤ content.length) :
    s.load_from (withTrailer content) = s.loadContent content := by
  have hlen : (withTrailer content).length = content.length + 36 := by simp [withTrailer, put_u32]
  have hcontent : (withTrailer content).length - 36 = content.length := by omega
  have htake : (withTrailer content).take content.length = content := by simp [withTrailer]
  have hcrc : (u32 { data := withTrailer content, pos := content.length }).1 = crc32 content := by
    have h := reads_u32 (crc32 content) content (sha256 content)
    rw [← List.append_assoc] at h
    exact congrArg (·.1) h
  have hsha : ((withTrailer content).drop (content.length + 4)).take 32 = sha256 content := by
    have hpre : content.length + 4 = (content ++ put_u32 (crc32 content)).length := by simp [put_u32]
    rw [withTrailer, hpre, List.drop_left, ← sha256_length content, List.take_length]
  have hnot : ¬ (withTrailer content).length < 46 := by omega
  unfold load_from
  rw [if_neg hnot]
  simp only [hcontent, htake, hcrc, hsha, ne_eq, not_true, if_false]

/-! ## The content -/

/-- The bytes before the records. -/
def put_prefix (r : Registry) : List UInt8 :=
  put_u32 kPersistMagic ++ (put_u8 kPersistVersion ++
    (put_authority r.authority ++ (put_u64 r.next_boot ++ (put_u64 r.next_id ++ r.put_counts))))

theorem put_content_eq (r : Registry) : r.put_content = r.put_prefix ++ r.put_records := by
  simp [put_content, put_prefix, List.append_assoc]

/-- Behind the header of `r` the loops over its counts begin. -/
theorem loadContent_prefix {r : Registry} (h : r.SizesFit) (s : Registry) (records : List UInt8) :
    s.loadContent (r.put_prefix ++ records) =
      (loadAll r.counts ⟨r.put_prefix ++ records, r.put_prefix.length, true⟩ s.cleared).andThen fun c t =>
        if !c.ok then (.error (malformed "truncated/malformed persistence record"), t)
        else if c.pos ≠ (r.put_prefix ++ records).length then (.error (malformed "trailing garbage in persistence"), t)
        else (.ok (), restore r.header t) := by
  have h₁ := reads_u32 kPersistMagic [] (put_u8 kPersistVersion ++ (put_authority r.authority ++
    (put_u64 r.next_boot ++ (put_u64 r.next_id ++ r.put_counts))) ++ records)
  have h₂ := reads_u8 kPersistVersion (put_u32 kPersistMagic) (put_authority r.authority ++
    (put_u64 r.next_boot ++ (put_u64 r.next_id ++ r.put_counts)) ++ records)
  have h₃ := reads_header h (put_u32 kPersistMagic ++ put_u8 kPersistVersion) records
  simp only [List.nil_append, List.length_nil, Nat.zero_add, List.append_assoc, List.length_append] at h₁ h₂ h₃
  unfold loadContent put_prefix
  simp only [List.append_assoc, List.length_append]
  rw [h₁]
  simp only [ne_eq, not_true, if_false, h₂, h₃, Bool.not_true, Bool.false_eq_true, Nat.add_assoc]
  rfl

theorem put_content_length (r : Registry) : 10 ≤ r.put_content.length := by
  simp only [put_content, put_u64, put_u32, List.length_append, List.length_cons]
  omega

/-- The image of a registry whose records fit reaches the last lines of `load_from`. -/
theorem load_from_serialize_restore {r : Registry} (h : r.Readable) (s : Registry) :
    s.load_from r.serialize = (.ok (), restore r.header (r.withRecords s)) := by
  have hall := loadAll_loads h s r.put_prefix []
  simp only [List.append_nil] at hall
  rw [serialize, load_from_withTrailer s (put_content_length r), put_content_eq, loadContent_prefix h.sizes, hall]
  simp

/-! ## The recovered registry -/

/-- What recovery makes of a registry: a new coordinator epoch that keeps its
number, with the indexes and the accounting rebuilt. -/
def recovered (r : Registry) : Registry :=
  let e := r.begin_coordinator_epoch
  let e := { e with authority := { e.authority with epoch := r.authority.epoch } }.rebuild_indexes
  { e with accounting := e.rebuiltAccounting }

theorem rebuild_indexes_accounting (r : Registry) (a : Accounting) :
    { r with accounting := a }.rebuild_indexes = { r.rebuild_indexes with accounting := a } := by
  have hfold : ∀ (l : List ServiceInstance) (s : Registry),
      l.foldl indexInstance { s with accounting := a } = { l.foldl indexInstance s with accounting := a } := by
    intro l
    induction l with
    | nil => exact fun _ => rfl
    | cons inst l ih => exact fun s => ih (s.indexInstance inst)
  exact hfold (r.instances.toList.map (·.2))
    { r with index_by_kind := ∅, index_by_service := ∅, index_by_boot := ∅, index_by_node := ∅ }

theorem restore_withRecords (r s : Registry) : restore r.header (r.withRecords s) = r.recovered := by
  have h := rebuild_indexes_accounting
    { r.begin_coordinator_epoch with authority := counters r.authority } s.accounting
  have hl : restore r.header (r.withRecords s) =
      let t := { { r.begin_coordinator_epoch with authority := counters r.authority } with
        accounting := s.accounting }.rebuild_indexes
      { t with accounting := t.rebuiltAccounting } := rfl
  rw [hl, h]
  rfl

/-- A registry within the bounds of the decoder is recovered from its image, into
whatever registry the image is loaded. The only named enumerators that recovery
asks for are the service kinds. -/
theorem load_from_serialize {r : Registry} (hr : r.Reachable) (hkinds : kindsNamed.Holds r) (htexts : textsFit.Holds r)
    (hlists : listsFit.Holds r) (hsizes : r.SizesFit) (s : Registry) :
    s.load_from r.serialize = (.ok (), r.recovered) := by
  have h : r.Readable := ⟨wellKeyed_reachable hr, htexts, hlists, hkinds, hsizes⟩
  rw [load_from_serialize_restore h, restore_withRecords]

theorem sample_readable : Sample.registry.Readable where
  keyed := wellKeyed_reachable Sample.registry_reachable.reachable
  texts := by
    refine RecordCondition.Holds.after textsFit_stable (RecordCondition.holds_fresh _) ?_
    simp [Sample.setup, RecordCondition.Admits, textsFit, Sample.service, Sample.incarnation, Text.Fits,
      ServiceDescriptor.TextsFit, ServiceInstance.TextsFit, SemanticVersion.TextsFit, Provenance.TextsFit]
  lists := by
    refine RecordCondition.Holds.after listsFit_stable (RecordCondition.holds_fresh _) ?_
    simp [Sample.setup, RecordCondition.Admits, listsFit, Sample.service, Sample.incarnation,
      ServiceDescriptor.ListsFit, ServiceInstance.ListsFit]
  kinds := by
    refine RecordCondition.Holds.after kindsNamed_stable (RecordCondition.holds_fresh _) ?_
    simp [Sample.setup, RecordCondition.Admits, kindsNamed, Sample.service, Enum.named_named]
  sizes := by constructor <;> decide +kernel

theorem load_from_serialize_sample :
    fresh.load_from Sample.registry.serialize = (.ok (), Sample.registry.recovered) :=
  load_from_serialize Sample.registry_reachable.reachable sample_readable.kinds sample_readable.texts
    sample_readable.lists sample_readable.sizes fresh

end Registry

end RuntimeRegistry
