import RuntimeRegistry.Authority
import RuntimeRegistry.Checksums
import RuntimeRegistry.Codec
/-!
# Persistence

An image is a header with the authority counters and eighteen record counts, the
records, and a trailer with the CRC-32 and SHA-256 of all before it. Loading
checks the trailer first, then reads record by record into the cleared registry,
so a record that is refused leaves the registry partly filled.
-/
open Lib Lib.Reader

namespace RuntimeRegistry

def kPersistMagic : UInt32 := 0x52525031
def kPersistVersion : UInt8 := 1
def kMaxRecordsPerMap : UInt32 := 10000000

namespace Registry

/-! ## Writing -/

/-- The records of a map in the order of their keys, whatever order the hash
table gave the keys in. -/
def serialize_sorted {tag : IdTag} {ρ : Type} (keys : List (Id tag)) (m : Map tag ρ) (put : ρ → List UInt8) :
    List UInt8 :=
  (keys.insertionSort fun a b => a.value ≤ b.value).flatMap fun k => (m[k]?.map put).getD []

/-- The generation counters, in the order of the header. -/
def put_authority (a : RegistryAuthority) : List UInt8 :=
  put_gen a.epoch ++ put_gen a.registry_generation ++ put_gen a.record_generation ++ put_gen a.service_gen ++
    put_gen a.instance_gen ++ put_gen a.runtime_gen ++ put_gen a.runtime_instance_gen ++ put_gen a.endpoint_gen ++
    put_gen a.protocol_gen ++ put_gen a.backend_gen ++ put_gen a.device_gen ++ put_gen a.capability_gen ++
    put_gen a.lease_gen ++ put_gen a.node_gen ++ put_gen a.compat_gen ++ put_gen a.trust_gen ++
    put_gen a.authority_gen

def put_count (n : Nat) : List UInt8 := put_u32 (UInt32.ofNat n)

def put_counts (r : Registry) : List UInt8 :=
  put_count r.services.size ++ put_count r.instances.size ++ put_count r.runtimes.size ++
    put_count r.runtime_instances.size ++ put_count r.endpoints.size ++ put_count r.protocols.size ++
    put_count r.backends.size ++ put_count r.devices.size ++ put_count r.capabilities.size ++
    put_count r.nodes.size ++ put_count r.leases.size ++ put_count r.tombstones.size ++
    put_count r.compat_records.size ++ put_count r.invalidations.length ++ put_count r.instance_history.length ++
    put_count r.runtime_history.length ++ put_count r.endpoint_history.length ++
    put_count r.capability_history.length

def put_records (r : Registry) : List UInt8 :=
  serialize_sorted r.services.keys r.services put_servicedesc ++
    serialize_sorted r.instances.keys r.instances put_instance ++
    serialize_sorted r.runtimes.keys r.runtimes put_runtime ++
    serialize_sorted r.runtime_instances.keys r.runtime_instances put_runtime ++
    serialize_sorted r.endpoints.keys r.endpoints put_endpoint ++
    serialize_sorted r.protocols.keys r.protocols put_protocol ++
    serialize_sorted r.backends.keys r.backends put_backend ++
    serialize_sorted r.devices.keys r.devices put_device ++
    serialize_sorted r.capabilities.keys r.capabilities put_capability ++
    serialize_sorted r.nodes.keys r.nodes put_node ++
    serialize_sorted r.leases.keys r.leases put_lease ++
    serialize_sorted r.tombstones.keys r.tombstones put_tombstone ++
    serialize_sorted r.compat_records.keys r.compat_records put_compat ++
    r.invalidations.flatMap put_invalidation ++ r.instance_history.flatMap put_instance ++
    r.runtime_history.flatMap put_runtime ++ r.endpoint_history.flatMap put_endpoint ++
    r.capability_history.flatMap put_capability

/-- Everything the trailer seals. -/
def put_content (r : Registry) : List UInt8 :=
  put_u32 kPersistMagic ++ put_u8 kPersistVersion ++ put_authority r.authority ++ put_u64 r.next_boot ++
    put_u64 r.next_id ++ r.put_counts ++ r.put_records

/-- The content with its trailer. -/
def withTrailer (content : List UInt8) : List UInt8 := content ++ put_u32 (crc32 content) ++ sha256 content

def serialize (r : Registry) : List UInt8 := withTrailer r.put_content

/-! ## Reading the header -/

/-- The authority of a header: it names no live incarnation. -/
def get_authority : Reader RegistryAuthority := do
  let epoch ← get_gen
  let registry_generation ← get_gen
  let record_generation ← get_gen
  let service_gen ← get_gen
  let instance_gen ← get_gen
  let runtime_gen ← get_gen
  let runtime_instance_gen ← get_gen
  let endpoint_gen ← get_gen
  let protocol_gen ← get_gen
  let backend_gen ← get_gen
  let device_gen ← get_gen
  let capability_gen ← get_gen
  let lease_gen ← get_gen
  let node_gen ← get_gen
  let compat_gen ← get_gen
  let trust_gen ← get_gen
  let authority_gen ← get_gen
  return {
    epoch, registry_generation, record_generation, service_gen, instance_gen, runtime_gen, runtime_instance_gen,
    endpoint_gen, protocol_gen, backend_gen, device_gen, capability_gen, lease_gen, node_gen, compat_gen, trust_gen,
    authority_gen }

/-- The eighteen counts of a header. -/
structure Counts where
  services : Nat
  instances : Nat
  runtimes : Nat
  rtinst : Nat
  endpoints : Nat
  protocols : Nat
  backends : Nat
  devices : Nat
  capabilities : Nat
  nodes : Nat
  leases : Nat
  tombstones : Nat
  compat : Nat
  invalidations : Nat
  ih : Nat
  rh : Nat
  eh : Nat
  ch : Nat

def rd_count : Reader Nat := do
  let c ← u32
  if c > kMaxRecordsPerMap then
    fail
    return c.toNat
  else return c.toNat

def get_counts : Reader Counts := do
  let services ← rd_count
  let instances ← rd_count
  let runtimes ← rd_count
  let rtinst ← rd_count
  let endpoints ← rd_count
  let protocols ← rd_count
  let backends ← rd_count
  let devices ← rd_count
  let capabilities ← rd_count
  let nodes ← rd_count
  let leases ← rd_count
  let tombstones ← rd_count
  let compat ← rd_count
  let invalidations ← rd_count
  let ih ← rd_count
  let rh ← rd_count
  let eh ← rd_count
  let ch ← rd_count
  return {
    services, instances, runtimes, rtinst, endpoints, protocols, backends, devices, capabilities, nodes, leases,
    tombstones, compat, invalidations, ih, rh, eh, ch }

/-- A header after its magic and version. -/
structure Header where
  authority : RegistryAuthority
  next_boot : UInt64
  next_id : UInt64
  counts : Counts

def get_header : Reader Header := do
  let authority ← get_authority
  let next_boot ← u64
  let next_id ← u64
  let counts ← get_counts
  return { authority, next_boot, next_id, counts }

/-! ## Reading the records -/

/-- A loading step: from a cursor and the registry filled so far. -/
abbrev Loading := Cursor → Registry → Outcome Cursor

def malformed (message : String) : RegistryError := ⟨.MALFORMED, text message⟩

/-- One record loop of `load_from`. Each round reads a record, refuses it, or
stores it. -/
def loadRecords {ρ : Type} (get : Reader ρ) (broken : String) (refuse : Registry → ρ → Option String)
    (store : ρ → Registry → Registry) : Nat → Loading
  | 0, c, r => (.ok c, r)
  | n + 1, c, r =>
    let (x, c) := get c
    if !c.ok then (.error (malformed broken), r)
    else match refuse r x with
      | some message => (.error (malformed message), r)
      | none => loadRecords get broken refuse store n c (store x r)

/-- The loop over the records of a map, which refuses a repeated key. -/
def loadMap {tag : IdTag} {ρ : Type} (get : Reader ρ) (broken duplicate : String) (key : ρ → Id tag)
    (table : Registry → Map tag ρ) (store : ρ → Registry → Registry) : Nat → Loading :=
  loadRecords get broken (fun r x => if key x ∈ table r then some duplicate else none) store

/-- The loop over the records of a vector. -/
def loadList {ρ : Type} (get : Reader ρ) (broken : String) (store : ρ → Registry → Registry) : Nat → Loading :=
  loadRecords get broken (fun _ _ => none) store

/-- Two loading steps in a row. -/
def Loading.next (f g : Loading) : Loading := fun c r => (f c r).andThen g

/-- The record maps and vectors are cleared; the authority state, the accounting
and the indexes are not. -/
def cleared (r : Registry) : Registry :=
  { r with
    services := ∅, instances := ∅, runtimes := ∅, runtime_instances := ∅, endpoints := ∅, protocols := ∅, backends := ∅
    devices := ∅, capabilities := ∅, nodes := ∅, leases := ∅, tombstones := ∅, compat_records := ∅, invalidations := []
    instance_history := [], runtime_history := [], endpoint_history := [], capability_history := [] }

def loadServices : Nat → Loading :=
  loadRecords get_servicedesc "malformed service record"
    (fun r s =>
      if s.service_id ∈ r.services then some "duplicate service identity"
      else if s.kind.toByte > 16 then some "invalid service kind"
      else none)
    fun s r => { r with services := r.services.insert s.service_id s }

def loadInstances : Nat → Loading :=
  loadMap get_instance "malformed instance record" "duplicate instance identity" (·.instance_id) (·.instances)
    fun x r => { r with instances := r.instances.insert x.instance_id x }

def loadRuntimes : Nat → Loading :=
  loadMap get_runtime "malformed runtime record" "duplicate runtime identity" (·.runtime_id) (·.runtimes)
    fun x r => { r with runtimes := r.runtimes.insert x.runtime_id x }

def loadRuntimeInstances : Nat → Loading :=
  loadMap get_runtime "malformed runtime instance record" "duplicate runtime instance identity" (·.runtime_instance)
    (·.runtime_instances) fun x r => { r with runtime_instances := r.runtime_instances.insert x.runtime_instance x }

def loadEndpoints : Nat → Loading :=
  loadMap get_endpoint "malformed endpoint record" "duplicate endpoint identity" (·.endpoint_id) (·.endpoints)
    fun x r => { r with endpoints := r.endpoints.insert x.endpoint_id x }

def loadProtocols : Nat → Loading :=
  loadMap get_protocol "malformed protocol record" "duplicate protocol identity" (·.protocol_id) (·.protocols)
    fun x r => { r with protocols := r.protocols.insert x.protocol_id x }

def loadBackends : Nat → Loading :=
  loadMap get_backend "malformed backend record" "duplicate backend identity" (·.backend_id) (·.backends)
    fun x r => { r with backends := r.backends.insert x.backend_id x }

def loadDevices : Nat → Loading :=
  loadMap get_device "malformed device record" "duplicate device identity" (·.device_id) (·.devices)
    fun x r => { r with devices := r.devices.insert x.device_id x }

def loadCapabilities : Nat → Loading :=
  loadMap get_capability "malformed capability record" "duplicate capability identity" (·.capability_id)
    (·.capabilities) fun x r => { r with capabilities := r.capabilities.insert x.capability_id x }

def loadNodes : Nat → Loading :=
  loadMap get_node "malformed node record" "duplicate node identity" (·.node_id) (·.nodes)
    fun x r => { r with nodes := r.nodes.insert x.node_id x }

def loadLeases : Nat → Loading :=
  loadMap get_lease "malformed lease record" "duplicate lease identity" (·.lease_id) (·.leases)
    fun x r => { r with leases := r.leases.insert x.lease_id x }

def loadTombstones : Nat → Loading :=
  loadMap get_tombstone "malformed tombstone record" "duplicate tombstone identity" (·.tombstone_id) (·.tombstones)
    fun x r => { r with tombstones := r.tombstones.insert x.tombstone_id x }

def loadCompat : Nat → Loading :=
  loadMap get_compat "malformed compatibility record" "duplicate compatibility identity" (·.compatibility_id)
    (·.compat_records) fun x r => { r with compat_records := r.compat_records.insert x.compatibility_id x }

def loadInvalidations : Nat → Loading :=
  loadList get_invalidation "malformed invalidation record"
    fun x r => { r with invalidations := r.invalidations ++ [x] }

def loadInstanceHistory : Nat → Loading :=
  loadList get_instance "malformed history instance"
    fun x r => { r with instance_history := r.instance_history ++ [x] }

def loadRuntimeHistory : Nat → Loading :=
  loadList get_runtime "malformed history runtime" fun x r => { r with runtime_history := r.runtime_history ++ [x] }

def loadEndpointHistory : Nat → Loading :=
  loadList get_endpoint "malformed history endpoint"
    fun x r => { r with endpoint_history := r.endpoint_history ++ [x] }

def loadCapabilityHistory : Nat → Loading :=
  loadList get_capability "malformed history capability"
    fun x r => { r with capability_history := r.capability_history ++ [x] }

/-- The eighteen loops. -/
def loadAll (n : Counts) : Loading :=
  .next (loadServices n.services) <| .next (loadInstances n.instances) <| .next (loadRuntimes n.runtimes) <|
  .next (loadRuntimeInstances n.rtinst) <| .next (loadEndpoints n.endpoints) <| .next (loadProtocols n.protocols) <|
  .next (loadBackends n.backends) <| .next (loadDevices n.devices) <| .next (loadCapabilities n.capabilities) <|
  .next (loadNodes n.nodes) <| .next (loadLeases n.leases) <| .next (loadTombstones n.tombstones) <|
  .next (loadCompat n.compat) <| .next (loadInvalidations n.invalidations) <| .next (loadInstanceHistory n.ih) <|
  .next (loadRuntimeHistory n.rh) <| .next (loadEndpointHistory n.eh) (loadCapabilityHistory n.ch)

/-! ## Recovery -/

def recoverInstance (inst : ServiceInstance) : ServiceInstance :=
  let inst :=
    if inst.lifecycle = Lifecycle.AVAILABLE ∨ inst.lifecycle = Lifecycle.DEGRADED ∨
        inst.lifecycle = Lifecycle.UNREADY then
      { inst with
        freshness := Freshness.REVALIDATION_REQUIRED
        reachability := Reachability.REVALIDATION_REQUIRED
        lifecycle :=
          if inst.lifecycle = Lifecycle.AVAILABLE ∨ inst.lifecycle = Lifecycle.DEGRADED then Lifecycle.UNREADY
          else inst.lifecycle }
    else inst
  { inst with updated_ms := 0 }

def recoverEndpoint (ep : EndpointDescriptor) : EndpointDescriptor :=
  if ep.transport = TransportKind.IN_PROCESS ∨ ep.transport = TransportKind.LOCAL_IPC then
    { ep with freshness := Freshness.REVALIDATION_REQUIRED, reachability := Reachability.REVALIDATION_REQUIRED }
  else if ep.transport = TransportKind.TCP then { ep with reachability := Reachability.REVALIDATION_REQUIRED }
  else ep

def recoverCapability (c : CapabilityDescriptor) : CapabilityDescriptor :=
  if c.freshness = Freshness.CURRENT ∧ c.provenance.is_physical then
    { c with freshness := Freshness.REVALIDATION_REQUIRED }
  else c

def recoverLease (l : LeaseDescriptor) : LeaseDescriptor :=
  if l.state = LeaseState.ACTIVE then { l with state := LeaseState.REVALIDATION_REQUIRED } else l

/-- The stored instances with the given lifecycle. -/
def countLifecycle (r : Registry) (l : Lifecycle) : Int :=
  ((r.instances.toList.map (·.2)).filter fun inst => inst.lifecycle = .named l).length

/-- The accounting that the record maps give. -/
def rebuiltAccounting (r : Registry) : Accounting :=
  { services := r.services.size
    service_instances := r.instances.size
    runtimes := r.runtimes.size
    runtime_instances := r.runtime_instances.size
    nodes := r.nodes.size
    endpoints := r.endpoints.size
    protocols := r.protocols.size
    backends := r.backends.size
    devices := r.devices.size
    capabilities := r.capabilities.size
    leases := r.leases.size
    available_instances := r.countLifecycle .AVAILABLE
    stale_instances := r.countLifecycle .STALE
    unreachable_instances := r.countLifecycle .UNREACHABLE }

/-- The lines of `load_from` after the records are read: the authority counters
are restored, and what was live has to be validated again. The epoch stays. -/
def restore (h : Header) (r : Registry) : Registry :=
  let r := { r with
    authority := h.authority
    next_boot := h.next_boot
    next_id := h.next_id
    instances := r.instances.map fun _ => recoverInstance
    endpoints := r.endpoints.map fun _ => recoverEndpoint
    capabilities := r.capabilities.map fun _ => recoverCapability
    leases := r.leases.map fun _ => recoverLease }
  let r := r.rebuild_indexes
  { r with accounting := r.rebuiltAccounting }

/-- The part of `load_from` after the trailer is checked, on the sealed bytes. -/
def loadContent (r : Registry) (content : List UInt8) : Outcome Unit :=
  let (magic, c) := u32 { data := content }
  if magic ≠ kPersistMagic then (.error (malformed "persistence bad magic"), r)
  else
    let (version, c) := u8 c
    if version ≠ kPersistVersion then (.error (malformed "persistence unsupported version"), r)
    else
      let (h, c) := get_header c
      if !c.ok then (.error (malformed "impossible counts"), r)
      else
        (loadAll h.counts c r.cleared).andThen fun c r =>
          if !c.ok then (.error (malformed "truncated/malformed persistence record"), r)
          else if c.pos ≠ content.length then (.error (malformed "trailing garbage in persistence"), r)
          else (.ok (), restore h r)

def load_from (r : Registry) (data : List UInt8) : Outcome Unit :=
  if data.length < 46 then (.error (malformed "persistence too short"), r)
  else
    let content_len := data.length - 36
    let content := data.take content_len
    let stored_crc := (u32 { data := data, pos := content_len }).1
    let stored_sha := (data.drop (content_len + 4)).take 32
    if crc32 content ≠ stored_crc then (.error (malformed "persistence CRC mismatch"), r)
    else if sha256 content ≠ stored_sha then (.error (malformed "persistence semantic digest mismatch"), r)
    else r.loadContent content

end Registry

end RuntimeRegistry
