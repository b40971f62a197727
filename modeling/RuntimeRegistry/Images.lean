import RuntimeRegistry.Recovery
/-!
# What an image tells

The image of a registry is the same whatever order its hash tables are walked in,
and two registries within the bounds of the decoder have the same image if they
have the same counters and records, and only then. The sections of an image are
told apart one by one: each is read by a reader that finds one end.
-/
open Lib Lib.Reader Lib.Table

namespace RuntimeRegistry

/-! ## The order of the tables -/

/-- The order in which the buckets of the hash tables give their keys. -/
structure Layout where
  services : List ServiceId
  instances : List ServiceInstanceId
  runtimes : List RuntimeId
  runtime_instances : List RuntimeInstanceId
  endpoints : List EndpointId
  protocols : List ProtocolId
  backends : List BackendId
  devices : List DeviceId
  capabilities : List CapabilityId
  nodes : List NodeId
  leases : List LeaseId
  tombstones : List TombstoneId
  compat_records : List CompatibilityId

/-- A walk of the tables of `r` gives each key once. -/
structure Layout.Of (L : Layout) (r : Registry) : Prop where
  services : L.services.Perm r.services.keys
  instances : L.instances.Perm r.instances.keys
  runtimes : L.runtimes.Perm r.runtimes.keys
  runtime_instances : L.runtime_instances.Perm r.runtime_instances.keys
  endpoints : L.endpoints.Perm r.endpoints.keys
  protocols : L.protocols.Perm r.protocols.keys
  backends : L.backends.Perm r.backends.keys
  devices : L.devices.Perm r.devices.keys
  capabilities : L.capabilities.Perm r.capabilities.keys
  nodes : L.nodes.Perm r.nodes.keys
  leases : L.leases.Perm r.leases.keys
  tombstones : L.tombstones.Perm r.tombstones.keys
  compat_records : L.compat_records.Perm r.compat_records.keys

namespace Registry

variable {r s : Registry} {L M : Layout}

/-- `put_records` where the tables are walked in the given order. -/
def put_records_in (r : Registry) (L : Layout) : List UInt8 :=
  serialize_sorted L.services r.services put_servicedesc ++
    serialize_sorted L.instances r.instances put_instance ++
    serialize_sorted L.runtimes r.runtimes put_runtime ++
    serialize_sorted L.runtime_instances r.runtime_instances put_runtime ++
    serialize_sorted L.endpoints r.endpoints put_endpoint ++
    serialize_sorted L.protocols r.protocols put_protocol ++
    serialize_sorted L.backends r.backends put_backend ++
    serialize_sorted L.devices r.devices put_device ++
    serialize_sorted L.capabilities r.capabilities put_capability ++
    serialize_sorted L.nodes r.nodes put_node ++
    serialize_sorted L.leases r.leases put_lease ++
    serialize_sorted L.tombstones r.tombstones put_tombstone ++
    serialize_sorted L.compat_records r.compat_records put_compat ++
    r.invalidations.flatMap put_invalidation ++ r.instance_history.flatMap put_instance ++
    r.runtime_history.flatMap put_runtime ++ r.endpoint_history.flatMap put_endpoint ++
    r.capability_history.flatMap put_capability

/-- `serialize` where the tables are walked in the given order. -/
def serialize_in (r : Registry) (L : Layout) : List UInt8 :=
  withTrailer (put_u32 kPersistMagic ++ put_u8 kPersistVersion ++ put_authority r.authority ++ put_u64 r.next_boot ++
    put_u64 r.next_id ++ r.put_counts ++ r.put_records_in L)

/-- The keys are sorted before they are used, so their order is lost. -/
theorem serialize_sorted_perm {tag : IdTag} {ρ : Type} {keys keys' : List (Id tag)} (h : keys.Perm keys') (m : Map tag ρ)
    (put : ρ → List UInt8) : serialize_sorted keys m put = serialize_sorted keys' m put := by
  have htotal : Std.Total fun a b : Id tag => a.value ≤ b.value := ⟨fun a b => UInt64.le_total a.value b.value⟩
  have htrans : IsTrans (Id tag) fun a b => a.value ≤ b.value := ⟨fun _ _ _ => UInt64.le_trans⟩
  have hsorted : ∀ ks : List (Id tag), (ks.insertionSort fun a b => a.value ≤ b.value).Pairwise fun a b => a.value ≤ b.value :=
    fun ks => List.pairwise_insertionSort _ ks
  have hperm : (keys.insertionSort fun a b => a.value ≤ b.value).Perm (keys'.insertionSort fun a b => a.value ≤ b.value) :=
    (List.perm_insertionSort _ keys).trans (h.trans (List.perm_insertionSort _ keys').symm)
  have hsame : keys.insertionSort (fun a b => a.value ≤ b.value) = keys'.insertionSort fun a b => a.value ≤ b.value := by
    refine hperm.eq_of_pairwise ?_ (hsorted keys) (hsorted keys')
    intro a b _ _ hab hba
    exact Id.value_inj.1 (UInt64.le_antisymm hab hba)
  rw [serialize_sorted, serialize_sorted, hsame]

theorem serialize_in_eq (h : L.Of r) : r.serialize_in L = r.serialize := by
  have hrecords : r.put_records_in L = r.put_records := by
    delta put_records_in put_records
    rw [serialize_sorted_perm h.services, serialize_sorted_perm h.instances,
      serialize_sorted_perm h.runtimes, serialize_sorted_perm h.runtime_instances, serialize_sorted_perm h.endpoints,
      serialize_sorted_perm h.protocols, serialize_sorted_perm h.backends, serialize_sorted_perm h.devices,
      serialize_sorted_perm h.capabilities, serialize_sorted_perm h.nodes, serialize_sorted_perm h.leases,
      serialize_sorted_perm h.tombstones, serialize_sorted_perm h.compat_records]
  rw [serialize_in, hrecords]
  rfl

/-! ## What is kept -/

/-- The two have the same counters and the same records. -/
structure SamePersisted (r s : Registry) : Prop where
  authority : counters r.authority = counters s.authority
  next_boot : r.next_boot = s.next_boot
  next_id : r.next_id = s.next_id
  services : r.services = s.services
  instances : r.instances = s.instances
  runtimes : r.runtimes = s.runtimes
  runtime_instances : r.runtime_instances = s.runtime_instances
  endpoints : r.endpoints = s.endpoints
  protocols : r.protocols = s.protocols
  backends : r.backends = s.backends
  devices : r.devices = s.devices
  capabilities : r.capabilities = s.capabilities
  nodes : r.nodes = s.nodes
  leases : r.leases = s.leases
  tombstones : r.tombstones = s.tombstones
  compat_records : r.compat_records = s.compat_records
  invalidations : r.invalidations = s.invalidations
  instance_history : r.instance_history = s.instance_history
  runtime_history : r.runtime_history = s.runtime_history
  endpoint_history : r.endpoint_history = s.endpoint_history
  capability_history : r.capability_history = s.capability_history

theorem put_authority_counters (a : RegistryAuthority) : put_authority (counters a) = put_authority a := rfl

/-- The image is written from what is kept. -/
theorem SamePersisted.serialize (h : SamePersisted r s) : r.serialize = s.serialize := by
  have hrecords : r.put_records = s.put_records := by
    delta put_records
    rw [h.services, h.instances, h.runtimes, h.runtime_instances, h.endpoints, h.protocols,
      h.backends, h.devices, h.capabilities, h.nodes, h.leases, h.tombstones, h.compat_records, h.invalidations,
      h.instance_history, h.runtime_history, h.endpoint_history, h.capability_history]
  have hcounts : r.put_counts = s.put_counts := by
    delta put_counts
    rw [h.services, h.instances, h.runtimes, h.runtime_instances, h.endpoints, h.protocols,
      h.backends, h.devices, h.capabilities, h.nodes, h.leases, h.tombstones, h.compat_records, h.invalidations,
      h.instance_history, h.runtime_history, h.endpoint_history, h.capability_history]
  rw [Registry.serialize, Registry.serialize, put_content, put_content, hrecords, hcounts, h.next_boot, h.next_id,
    ← put_authority_counters r.authority, ← put_authority_counters s.authority, h.authority]

/-! ## Telling the sections apart -/

section
variable {ρ : Type} {get : Reader ρ} {put : ρ → List UInt8} {rest rest' : List UInt8}

/-- A section with a known number of records is told apart from what follows it. -/
theorem list_section {xs ys : List ρ} (hx : ∀ x ∈ xs, Reads get (put x) x) (hy : ∀ y ∈ ys, Reads get (put y) y)
    (hlen : xs.length = ys.length) (h : xs.flatMap put ++ rest = ys.flatMap put ++ rest') : xs = ys ∧ rest = rest' := by
  have hxs : Reads (Reader.times get xs.length) (xs.flatMap put) xs := .times hx
  have hys : Reads (Reader.times get ys.length) (ys.flatMap put) ys := .times hy
  rw [hlen] at hxs
  exact hxs.unique hys h

/-- So is the section of a table whose records know their keys, and the table with it. -/
theorem table_section {tag : IdTag} {m n : Map tag ρ} {key : ρ → Id tag} (hm : All (fun _ x => Reads get (put x) x) m)
    (hn : All (fun _ x => Reads get (put x) x) n) (hkm : All (fun k x => key x = k) m)
    (hkn : All (fun k x => key x = k) n) (hsize : m.size = n.size)
    (h : serialize_sorted m.keys m put ++ rest = serialize_sorted n.keys n put ++ rest') : m = n ∧ rest = rest' := by
  rw [serialize_sorted_keys, serialize_sorted_keys] at h
  have hm' : ∀ x ∈ values m, Reads get (put x) x := fun x hx => (mem_values.1 hx).elim fun k hk => hm k x hk
  have hn' : ∀ x ∈ values n, Reads get (put x) x := fun x hx => (mem_values.1 hx).elim fun k hk => hn k x hk
  have hvalues := list_section hm' hn' (by rw [length_values, length_values, hsize]) h
  refine ⟨?_, hvalues.2⟩
  rw [← build_values hkm, hvalues.1, build_values hkn]

end

theorem withTrailer_inj {a b : List UInt8} (h : withTrailer a = withTrailer b) : a = b := by
  rw [withTrailer, withTrailer, List.append_assoc, List.append_assoc] at h
  refine (List.append_inj' h ?_).1
  rw [List.length_append, List.length_append, sha256_length, sha256_length]
  rfl

/-- The bounds of the decoder on a registry whose records know their keys. -/
structure Bounded (r : Registry) : Prop where
  keyed : wellKeyed.Holds r
  texts : textsFit.Holds r
  lists : listsFit.Holds r
  sizes : r.SizesFit

/-- The image tells the header and the bytes of the records. -/
theorem serialize_header (hr : r.SizesFit) (hs : s.SizesFit) (h : r.serialize = s.serialize) :
    r.header = s.header ∧ r.put_records = s.put_records := by
  have hcontent := withTrailer_inj h
  simp only [put_content, List.append_assoc] at hcontent
  have hbehind := List.append_cancel_left (List.append_cancel_left hcontent)
  refine (reads_header hr).unique (reads_header hs) ?_
  simpa only [List.append_assoc] using hbehind

/-- Every record is read back from its bytes. -/
def readBack : RecordCondition where
  service _ x := Reads get_servicedesc (put_servicedesc x) x
  inst _ x := Reads get_instance (put_instance x) x
  runtime _ x := Reads get_runtime (put_runtime x) x
  runtimeInstance _ x := Reads get_runtime (put_runtime x) x
  endpoint _ x := Reads get_endpoint (put_endpoint x) x
  protocol _ x := Reads get_protocol (put_protocol x) x
  backend _ x := Reads get_backend (put_backend x) x
  device _ x := Reads get_device (put_device x) x
  capability _ x := Reads get_capability (put_capability x) x
  node _ x := Reads get_node (put_node x) x
  lease _ x := Reads get_lease (put_lease x) x
  tombstone _ x := Reads get_tombstone (put_tombstone x) x
  compat _ x := Reads get_compat (put_compat x) x
  invalidation x := Reads get_invalidation (put_invalidation x) x

theorem Bounded.readBack (h : r.Bounded) : readBack.Holds r where
  services k x hx := reads_servicedesc (h.texts.services k x hx) (h.lists.services k x hx)
  instances k x hx := reads_instance (h.texts.instances k x hx) (h.lists.instances k x hx)
  runtimes k x hx := reads_runtime (h.texts.runtimes k x hx) (h.lists.runtimes k x hx)
  runtime_instances k x hx := reads_runtime (h.texts.runtime_instances k x hx) (h.lists.runtime_instances k x hx)
  endpoints k x hx := reads_endpoint (h.texts.endpoints k x hx)
  protocols k x hx := reads_protocol (h.texts.protocols k x hx) (h.lists.protocols k x hx)
  backends k x hx := reads_backend (h.texts.backends k x hx) (h.lists.backends k x hx)
  devices k x hx := reads_device (h.texts.devices k x hx)
  capabilities k x hx := reads_capability (h.texts.capabilities k x hx) (h.lists.capabilities k x hx)
  nodes k x hx := reads_node (h.texts.nodes k x hx) (h.lists.nodes k x hx)
  leases k x hx := reads_lease (h.texts.leases k x hx)
  tombstones k x hx := reads_tombstone (h.texts.tombstones k x hx)
  compat_records k x hx := reads_compat (h.texts.compat_records k x hx)
  invalidations x hx := reads_invalidation (h.texts.invalidations x hx)
  instance_history x hx := ⟨x.instance_id, reads_instance (h.texts.instance_history x hx).choose_spec
    (h.lists.instance_history x hx).choose_spec⟩
  runtime_history x hx := ⟨x.runtime_instance, reads_runtime (h.texts.runtime_history x hx).choose_spec
    (h.lists.runtime_history x hx).choose_spec⟩
  endpoint_history x hx := ⟨x.endpoint_id, reads_endpoint (h.texts.endpoint_history x hx).choose_spec⟩
  capability_history x hx := ⟨x.capability_id, reads_capability (h.texts.capability_history x hx).choose_spec
    (h.lists.capability_history x hx).choose_spec⟩

/-- Where the headers agree, the bytes of the records tell the records, section by
section. -/
theorem put_records_inj (hr : r.Bounded) (hs : s.Bounded) (hheader : r.header = s.header)
    (h : r.put_records = s.put_records) : SamePersisted r s := by
  simp only [header, counts, Header.mk.injEq, Counts.mk.injEq] at hheader
  obtain ⟨hauthority, hboot, hid, n₁, n₂, n₃, n₄, n₅, n₆, n₇, n₈, n₉, n₁₀, n₁₁, n₁₂, n₁₃, n₁₄, n₁₅, n₁₆, n₁₇, n₁₈⟩ := hheader
  have hrr := hr.readBack
  have hrs := hs.readBack
  have hkr := hr.keyed
  have hks := hs.keyed
  delta put_records at h
  simp only [List.append_assoc] at h
  obtain ⟨h₁, h⟩ := table_section hrr.services hrs.services hkr.services hks.services n₁ h
  obtain ⟨h₂, h⟩ := table_section hrr.instances hrs.instances hkr.instances hks.instances n₂ h
  obtain ⟨h₃, h⟩ := table_section hrr.runtimes hrs.runtimes hkr.runtimes hks.runtimes n₃ h
  obtain ⟨h₄, h⟩ := table_section hrr.runtime_instances hrs.runtime_instances hkr.runtime_instances
    hks.runtime_instances n₄ h
  obtain ⟨h₅, h⟩ := table_section hrr.endpoints hrs.endpoints hkr.endpoints hks.endpoints n₅ h
  obtain ⟨h₆, h⟩ := table_section hrr.protocols hrs.protocols hkr.protocols hks.protocols n₆ h
  obtain ⟨h₇, h⟩ := table_section hrr.backends hrs.backends hkr.backends hks.backends n₇ h
  obtain ⟨h₈, h⟩ := table_section hrr.devices hrs.devices hkr.devices hks.devices n₈ h
  obtain ⟨h₉, h⟩ := table_section hrr.capabilities hrs.capabilities hkr.capabilities hks.capabilities n₉ h
  obtain ⟨h₁₀, h⟩ := table_section hrr.nodes hrs.nodes hkr.nodes hks.nodes n₁₀ h
  obtain ⟨h₁₁, h⟩ := table_section hrr.leases hrs.leases hkr.leases hks.leases n₁₁ h
  obtain ⟨h₁₂, h⟩ := table_section hrr.tombstones hrs.tombstones hkr.tombstones hks.tombstones n₁₂ h
  obtain ⟨h₁₃, h⟩ := table_section hrr.compat_records hrs.compat_records hkr.compat_records hks.compat_records n₁₃ h
  obtain ⟨h₁₄, h⟩ := list_section hrr.invalidations hrs.invalidations n₁₄ h
  obtain ⟨h₁₅, h⟩ := list_section (fun x hx => (hrr.instance_history x hx).choose_spec)
    (fun x hx => (hrs.instance_history x hx).choose_spec) n₁₅ h
  obtain ⟨h₁₆, h⟩ := list_section (fun x hx => (hrr.runtime_history x hx).choose_spec)
    (fun x hx => (hrs.runtime_history x hx).choose_spec) n₁₆ h
  obtain ⟨h₁₇, h⟩ := list_section (fun x hx => (hrr.endpoint_history x hx).choose_spec)
    (fun x hx => (hrs.endpoint_history x hx).choose_spec) n₁₇ h
  -- nothing follows the last section
  rw [← List.append_nil (r.capability_history.flatMap _), ← List.append_nil (s.capability_history.flatMap _)] at h
  obtain ⟨h₁₈, -⟩ := list_section (fun x hx => (hrr.capability_history x hx).choose_spec)
    (fun x hx => (hrs.capability_history x hx).choose_spec) n₁₈ h
  exact ⟨hauthority, hboot, hid, h₁, h₂, h₃, h₄, h₅, h₆, h₇, h₈, h₉, h₁₀, h₁₁, h₁₂, h₁₃, h₁₄, h₁₅, h₁₆, h₁₇, h₁₈⟩

theorem Bounded.serialize_iff (hr : r.Bounded) (hs : s.Bounded) : r.serialize = s.serialize ↔ SamePersisted r s := by
  refine ⟨fun h => ?_, SamePersisted.serialize⟩
  obtain ⟨hheader, hrecords⟩ := serialize_header hr.sizes hs.sizes h
  exact put_records_inj hr hs hheader hrecords

/-- Two registries within the bounds of the decoder have the same image if their
counters and records are the same, and only then, whatever order the hash tables of
either are walked in. -/
theorem serialize_identifies (hr : r.Reachable) (hs : s.Reachable) (htr : textsFit.Holds r) (hts : textsFit.Holds s)
    (hlr : listsFit.Holds r) (hls : listsFit.Holds s) (hnr : r.SizesFit) (hns : s.SizesFit) (hL : L.Of r) (hM : M.Of s) :
    r.serialize_in L = s.serialize_in M ↔ SamePersisted r s := by
  rw [serialize_in_eq hL, serialize_in_eq hM]
  exact Bounded.serialize_iff ⟨wellKeyed_reachable hr, htr, hlr, hnr⟩ ⟨wellKeyed_reachable hs, hts, hls, hns⟩

/-- The tables of a registry in the order of their keys, last key first. -/
def backwards (r : Registry) : Layout where
  services := r.services.keys.reverse
  instances := r.instances.keys.reverse
  runtimes := r.runtimes.keys.reverse
  runtime_instances := r.runtime_instances.keys.reverse
  endpoints := r.endpoints.keys.reverse
  protocols := r.protocols.keys.reverse
  backends := r.backends.keys.reverse
  devices := r.devices.keys.reverse
  capabilities := r.capabilities.keys.reverse
  nodes := r.nodes.keys.reverse
  leases := r.leases.keys.reverse
  tombstones := r.tombstones.keys.reverse
  compat_records := r.compat_records.keys.reverse

theorem backwards_of (r : Registry) : r.backwards.Of r := by
  constructor <;> exact List.reverse_perm _

theorem serialize_identifies_sample :
    Sample.registry.serialize_in Sample.registry.backwards = fresh.serialize_in fresh.backwards ↔
      SamePersisted Sample.registry fresh :=
  serialize_identifies Sample.registry_reachable.reachable (.refl _) sample_readable.texts (RecordCondition.holds_fresh _)
    sample_readable.lists (RecordCondition.holds_fresh _) sample_readable.sizes (by constructor <;> decide +kernel)
    (backwards_of _) (backwards_of _)

end Registry

end RuntimeRegistry
