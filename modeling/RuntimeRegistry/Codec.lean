import RuntimeRegistry.Lib.Reader
import RuntimeRegistry.Model
/-!
# The record codecs

`put_x` gives the bytes appended for a value and `get_x` reads one. Integers are
little-endian, ids and generations are their 64-bit values, an enumeration is
one byte, and texts and lists are preceded by a 32-bit length. The decoder bounds
texts by 2^24 bytes and lists by 256 or 4096 elements; the encoder bounds nothing.
-/
open Lib Lib.Reader

namespace RuntimeRegistry

/-! ## Integers, texts and lists -/

def put_u8 (v : UInt8) : List UInt8 := [v]

def put_u32 (v : UInt32) : List UInt8 := [v.toUInt8, (v >>> 8).toUInt8, (v >>> 16).toUInt8, (v >>> 24).toUInt8]

def put_u64 (v : UInt64) : List UInt8 := put_u32 v.toUInt32 ++ put_u32 (v >>> 32).toUInt32

def put_i64 (v : Int64) : List UInt8 := put_u64 v.toUInt64

def put_f64 (d : F64) : List UInt8 := put_u64 d.bits

def put_bool (b : Bool) : List UInt8 := put_u8 (if b then 1 else 0)

def put_str (s : Text) : List UInt8 := put_u32 (UInt32.ofNat s.length) ++ s

def put_enum {ε : Type} [Enumerators ε] [DecidableEq ε] (x : Enum ε) : List UInt8 := put_u8 x.toByte

def put_id {tag : IdTag} (id : Id tag) : List UInt8 := put_u64 id.value

def put_gen {tag : GenTag} (g : Gen tag) : List UInt8 := put_u64 g.value

/-- A count and the elements. -/
def put_list {α : Type} (put : α → List UInt8) (xs : List α) : List UInt8 :=
  put_u32 (UInt32.ofNat xs.length) ++ xs.flatMap put

/-- `R::u8` -/
def u8 : Reader UInt8 := fun c =>
  if h : c.pos + 1 > c.data.length then (0, { c with ok := false })
  else (c.data[c.pos], { c with pos := c.pos + 1 })

/-- `R::u32` -/
def u32 : Reader UInt32 := fun c =>
  if h : c.pos + 4 > c.data.length then (0, { c with ok := false })
  else
    ((c.data[c.pos]).toUInt32 ||| (c.data[c.pos + 1]).toUInt32 <<< 8 |||
      (c.data[c.pos + 2]).toUInt32 <<< 16 ||| (c.data[c.pos + 3]).toUInt32 <<< 24,
      { c with pos := c.pos + 4 })

/-- `R::u64` -/
def u64 : Reader UInt64 := do
  let lo ← u32
  let hi ← u32
  return lo.toUInt64 ||| hi.toUInt64 <<< 32

/-- `R::f64` -/
def f64 : Reader F64 := do return ⟨← u64⟩

/-- The bytes of a text of the given length, which is refused above 2^24. -/
def take (len : UInt32) : Reader Text := fun c =>
  if !c.ok || c.pos + len.toNat > c.data.length || len > 0x1000000 then ([], { c with ok := false })
  else ((c.data.drop c.pos).take len.toNat, { c with pos := c.pos + len.toNat })

/-- `R::str` -/
def str : Reader Text := do
  let len ← u32
  take len

def get_i64 : Reader Int64 := do return (← u64).toInt64

def get_bool : Reader Bool := do return (← u8) != 0

def get_enum {ε : Type} [Enumerators ε] : Reader (Enum ε) := do return Enum.ofByte (← u8)

def get_id {tag : IdTag} : Reader (Id tag) := do return ⟨← u64⟩

def get_gen {tag : GenTag} : Reader (Gen tag) := do return ⟨← u64⟩

/-- `if (n > max) r.ok = false;` and the loop that stops when `ok` is lost -/
def get_list {α : Type} (max : UInt32) (get : Reader α) : Reader (List α) := do
  let n ← u32
  if n > max then
    fail
    many get n.toNat
  else many get n.toNat

/-! ## Versions, provenance and capability values -/

def put_version (v : SemanticVersion) : List UInt8 :=
  put_i64 v.major ++ put_i64 v.minor ++ put_i64 v.patch ++ put_str v.prerelease ++ put_str v.build

def get_version : Reader SemanticVersion := do
  let major ← get_i64
  let minor ← get_i64
  let patch ← get_i64
  let prerelease ← str
  let build ← str
  return { major, minor, patch, prerelease, build }

def put_sv {tag : VersionTag} (v : StructuredVersion tag) : List UInt8 :=
  put_i64 v.major ++ put_i64 v.minor ++ put_i64 v.patch

def get_sv {tag : VersionTag} : Reader (StructuredVersion tag) := do
  let major ← get_i64
  let minor ← get_i64
  let patch ← get_i64
  return { major, minor, patch }

def put_prov (p : Provenance) : List UInt8 :=
  put_enum p.kind ++ put_str p.source ++ put_i64 p.timestamp_ms ++ put_str p.digest

def get_prov : Reader Provenance := do
  let kind ← get_enum
  let source ← str
  let timestamp_ms ← get_i64
  let digest ← str
  return { kind, source, timestamp_ms, digest }

mutual
def put_capval : CapabilityValue → List UInt8
  | ⟨kind, boolean, integer, real, string, has_min, has_max, range_min, range_max, structured⟩ =>
    put_enum kind ++ put_bool boolean ++ put_i64 integer ++ put_f64 real ++ put_bool has_min ++ put_bool has_max ++
      put_f64 range_min ++ put_f64 range_max ++ put_str string ++ put_u32 (UInt32.ofNat structured.length) ++
      put_entries structured

/-- The keys and values of a structured value. -/
def put_entries : List (Text × CapabilityValue) → List UInt8
  | [] => []
  | (k, v) :: entries => put_str k ++ put_capval v ++ put_entries entries
end

/-- `get_capval` to a nesting of `depth` values. -/
def get_capval_to : Nat → Reader CapabilityValue
  | 0 => return {}
  | depth + 1 => do
    let kind ← get_enum
    let boolean ← get_bool
    let integer ← get_i64
    let real ← f64
    let has_min ← get_bool
    let has_max ← get_bool
    let range_min ← f64
    let range_max ← f64
    let string ← str
    let len ← u32
    if len > 4096 then
      fail
      return { kind, boolean, integer, real, string, has_min, has_max, range_min, range_max }
    else
      let structured ← times (do let k ← str; let v ← get_capval_to depth; return (k, v)) len.toNat
      return { kind, boolean, integer, real, string, has_min, has_max, range_min, range_max, structured }

/-- A nested value costs at least the four bytes of a count, so the bytes that
are left bound the nesting. -/
def get_capval : Reader CapabilityValue := fun c => get_capval_to ((c.data.length - c.pos) / 4 + 1) c

/-! ## Records -/

def put_servicedesc (s : ServiceDescriptor) : List UInt8 :=
  put_id s.service_id ++ put_enum s.kind ++ put_str s.name ++ put_gen s.generation ++ put_id s.owner ++
    put_enum s.lifecycle ++ put_version s.version ++ put_sv s.api_version ++ put_sv s.abi_version ++
    put_list put_enum s.required_capabilities ++ put_list put_enum s.optional_capabilities ++
    put_list put_id s.protocol_requirements ++ put_id s.compatibility_ref ++ put_gen s.policy_generation ++
    put_prov s.provenance ++ put_str s.semantic_digest

def get_servicedesc : Reader ServiceDescriptor := do
  let service_id ← get_id
  let kind ← get_enum
  let name ← str
  let generation ← get_gen
  let owner ← get_id
  let lifecycle ← get_enum
  let version ← get_version
  let api_version ← get_sv
  let abi_version ← get_sv
  let required_capabilities ← get_list 256 get_enum
  let optional_capabilities ← get_list 256 get_enum
  let protocol_requirements ← get_list 256 get_id
  let compatibility_ref ← get_id
  let policy_generation ← get_gen
  let provenance ← get_prov
  let semantic_digest ← str
  return {
    service_id, kind, name, generation, owner, lifecycle, version, api_version, abi_version, required_capabilities,
    optional_capabilities, protocol_requirements, compatibility_ref, policy_generation, provenance, semantic_digest }

def put_instance (i : ServiceInstance) : List UInt8 :=
  put_id i.instance_id ++ put_id i.service_id ++ put_gen i.service_generation ++ put_gen i.instance_generation ++
    put_id i.node ++ put_id i.worker ++ put_id i.boot ++ put_id i.process ++ put_id i.runtime_id ++
    put_id i.runtime_instance ++ put_list put_id i.endpoints ++ put_list put_id i.protocols ++
    put_list put_id i.capabilities ++ put_enum i.health ++ put_enum i.readiness ++ put_enum i.freshness ++
    put_enum i.reachability ++ put_id i.lease ++ put_enum i.lifecycle ++ put_version i.version ++
    put_id i.compatibility_ref ++ put_gen i.authority_generation ++ put_i64 i.registered_ms ++
    put_i64 i.updated_ms ++ put_i64 i.expires_ms ++ put_prov i.provenance ++ put_str i.semantic_digest

def get_instance : Reader ServiceInstance := do
  let instance_id ← get_id
  let service_id ← get_id
  let service_generation ← get_gen
  let instance_generation ← get_gen
  let node ← get_id
  let worker ← get_id
  let boot ← get_id
  let process ← get_id
  let runtime_id ← get_id
  let runtime_instance ← get_id
  let endpoints ← get_list 4096 get_id
  let protocols ← get_list 4096 get_id
  let capabilities ← get_list 4096 get_id
  let health ← get_enum
  let readiness ← get_enum
  let freshness ← get_enum
  let reachability ← get_enum
  let lease ← get_id
  let lifecycle ← get_enum
  let version ← get_version
  let compatibility_ref ← get_id
  let authority_generation ← get_gen
  let registered_ms ← get_i64
  let updated_ms ← get_i64
  let expires_ms ← get_i64
  let provenance ← get_prov
  let semantic_digest ← str
  return {
    instance_id, service_id, service_generation, instance_generation, node, worker, boot, process, runtime_id,
    runtime_instance, endpoints, protocols, capabilities, health, readiness, freshness, reachability, lease,
    lifecycle, version, compatibility_ref, authority_generation, registered_ms, updated_ms, expires_ms, provenance,
    semantic_digest }

def put_runtime (rt : RuntimeDescriptor) : List UInt8 :=
  put_id rt.runtime_id ++ put_id rt.runtime_instance ++ put_gen rt.generation ++ put_enum rt.kind ++ put_str rt.name ++
    put_str rt.family ++ put_version rt.version ++ put_sv rt.api_version ++ put_sv rt.abi_version ++
    put_str rt.build_identity ++ put_str rt.compiler_identity ++ put_list put_id rt.supported_protocols ++
    put_list put_id rt.capabilities ++ put_list put_id rt.backends ++ put_str rt.architecture ++
    put_str rt.device_constraint ++ put_prov rt.provenance ++ put_id rt.node ++ put_id rt.owner_worker ++
    put_id rt.owner_boot

def get_runtime : Reader RuntimeDescriptor := do
  let runtime_id ← get_id
  let runtime_instance ← get_id
  let generation ← get_gen
  let kind ← get_enum
  let name ← str
  let family ← str
  let version ← get_version
  let api_version ← get_sv
  let abi_version ← get_sv
  let build_identity ← str
  let compiler_identity ← str
  let supported_protocols ← get_list 4096 get_id
  let capabilities ← get_list 4096 get_id
  let backends ← get_list 4096 get_id
  let architecture ← str
  let device_constraint ← str
  let provenance ← get_prov
  let node ← get_id
  let owner_worker ← get_id
  let owner_boot ← get_id
  return {
    runtime_id, runtime_instance, generation, kind, name, family, version, api_version, abi_version, build_identity,
    compiler_identity, supported_protocols, capabilities, backends, architecture, device_constraint, provenance, node,
    owner_worker, owner_boot }

/-- The port is written as 32 bits, and cut back to 16 when read. -/
def put_endpoint (e : EndpointDescriptor) : List UInt8 :=
  put_id e.endpoint_id ++ put_id e.service_instance ++ put_gen e.generation ++ put_id e.protocol ++ put_str e.locator ++
    put_enum e.transport ++ put_u32 e.port.toUInt32 ++ put_enum e.security ++ put_enum e.health ++
    put_enum e.reachability ++ put_enum e.freshness ++ put_prov e.provenance ++ put_gen e.authority_generation

def get_endpoint : Reader EndpointDescriptor := do
  let endpoint_id ← get_id
  let service_instance ← get_id
  let generation ← get_gen
  let protocol ← get_id
  let locator ← str
  let transport ← get_enum
  let port ← u32
  let security ← get_enum
  let health ← get_enum
  let reachability ← get_enum
  let freshness ← get_enum
  let provenance ← get_prov
  let authority_generation ← get_gen
  return {
    endpoint_id, service_instance, generation, protocol, locator, transport, port := port.toUInt16, security, health,
    reachability, freshness, provenance, authority_generation }

def put_protocol (p : ProtocolDescriptor) : List UInt8 :=
  put_id p.protocol_id ++ put_str p.name ++ put_gen p.generation ++ put_sv p.version ++ put_sv p.compatibility_min ++
    put_str p.framing ++ put_list put_enum p.required_capabilities ++ put_i64 p.max_payload ++ put_prov p.provenance

def get_protocol : Reader ProtocolDescriptor := do
  let protocol_id ← get_id
  let name ← str
  let generation ← get_gen
  let version ← get_sv
  let compatibility_min ← get_sv
  let framing ← str
  let required_capabilities ← get_list 256 get_enum
  let max_payload ← get_i64
  let provenance ← get_prov
  return {
    protocol_id, name, generation, version, compatibility_min, framing, required_capabilities, max_payload,
    provenance }

def put_backend (bd : BackendDescriptor) : List UInt8 :=
  put_id bd.backend_id ++ put_enum bd.kind ++ put_gen bd.generation ++ put_id bd.runtime_binding ++
    put_list put_id bd.capabilities ++ put_version bd.version ++ put_enum bd.health ++ put_enum bd.readiness ++
    put_enum bd.freshness ++ put_prov bd.provenance

def get_backend : Reader BackendDescriptor := do
  let backend_id ← get_id
  let kind ← get_enum
  let generation ← get_gen
  let runtime_binding ← get_id
  let capabilities ← get_list 4096 get_id
  let version ← get_version
  let health ← get_enum
  let readiness ← get_enum
  let freshness ← get_enum
  let provenance ← get_prov
  return {
    backend_id, kind, generation, runtime_binding, capabilities, version, health, readiness, freshness, provenance }

def put_device (d : DeviceDescriptor) : List UInt8 :=
  put_id d.device_id ++ put_gen d.generation ++ put_str d.name ++ put_str d.vendor ++ put_str d.architecture ++
    put_str d.compute_capability ++ put_i64 d.total_memory ++ put_i64 d.free_memory ++ put_str d.backend_binding ++
    put_prov d.provenance ++ put_enum d.freshness ++ put_enum d.health

def get_device : Reader DeviceDescriptor := do
  let device_id ← get_id
  let generation ← get_gen
  let name ← str
  let vendor ← str
  let architecture ← str
  let compute_capability ← str
  let total_memory ← get_i64
  let free_memory ← get_i64
  let backend_binding ← str
  let provenance ← get_prov
  let freshness ← get_enum
  let health ← get_enum
  return {
    device_id, generation, name, vendor, architecture, compute_capability, total_memory, free_memory, backend_binding,
    provenance, freshness, health }

def put_capability (c : CapabilityDescriptor) : List UInt8 :=
  put_id c.capability_id ++ put_enum c.kind ++ put_gen c.generation ++ put_version c.version ++ put_capval c.value ++
    put_list put_str c.attributes ++ put_list put_str c.constraints ++ put_prov c.provenance ++ put_enum c.freshness ++
    put_gen c.authority_generation

def get_capability : Reader CapabilityDescriptor := do
  let capability_id ← get_id
  let kind ← get_enum
  let generation ← get_gen
  let version ← get_version
  let value ← get_capval
  let attributes ← get_list 256 str
  let constraints ← get_list 256 str
  let provenance ← get_prov
  let freshness ← get_enum
  let authority_generation ← get_gen
  return {
    capability_id, kind, generation, version, value, attributes, constraints, provenance, freshness,
    authority_generation }

def put_node (n : NodeDescriptor) : List UInt8 :=
  put_id n.node_id ++ put_gen n.generation ++ put_str n.hostname ++ put_list put_id n.runtimes ++
    put_list put_id n.service_instances ++ put_list put_id n.devices ++ put_list put_id n.backends ++
    put_enum n.health ++ put_enum n.readiness ++ put_enum n.freshness ++ put_enum n.reachability ++
    put_prov n.provenance

def get_node : Reader NodeDescriptor := do
  let node_id ← get_id
  let generation ← get_gen
  let hostname ← str
  let runtimes ← get_list 4096 get_id
  let service_instances ← get_list 4096 get_id
  let devices ← get_list 4096 get_id
  let backends ← get_list 4096 get_id
  let health ← get_enum
  let readiness ← get_enum
  let freshness ← get_enum
  let reachability ← get_enum
  let provenance ← get_prov
  return {
    node_id, generation, hostname, runtimes, service_instances, devices, backends, health, readiness, freshness,
    reachability, provenance }

def put_lease (l : LeaseDescriptor) : List UInt8 :=
  put_id l.lease_id ++ put_gen l.generation ++ put_id l.service_instance ++ put_id l.boot ++ put_i64 l.issued_ms ++
    put_i64 l.renew_interval_ms ++ put_enum l.renewal_policy ++ put_enum l.state ++ put_i64 l.expires_ms ++
    put_prov l.provenance ++ put_gen l.authority_generation

def get_lease : Reader LeaseDescriptor := do
  let lease_id ← get_id
  let generation ← get_gen
  let service_instance ← get_id
  let boot ← get_id
  let issued_ms ← get_i64
  let renew_interval_ms ← get_i64
  let renewal_policy ← get_enum
  let state ← get_enum
  let expires_ms ← get_i64
  let provenance ← get_prov
  let authority_generation ← get_gen
  return {
    lease_id, generation, service_instance, boot, issued_ms, renew_interval_ms, renewal_policy, state, expires_ms,
    provenance, authority_generation }

def put_tombstone (t : TombstoneRecord) : List UInt8 :=
  put_id t.tombstone_id ++ put_str t.target_kind ++ put_str t.target_text ++ put_gen t.generation_floor ++
    put_gen t.epoch ++ put_id t.boot ++ put_gen t.authority_generation ++ put_str t.reason ++ put_i64 t.timestamp_ms ++
    put_prov t.provenance

def get_tombstone : Reader TombstoneRecord := do
  let tombstone_id ← get_id
  let target_kind ← str
  let target_text ← str
  let generation_floor ← get_gen
  let epoch ← get_gen
  let boot ← get_id
  let authority_generation ← get_gen
  let reason ← str
  let timestamp_ms ← get_i64
  let provenance ← get_prov
  return {
    tombstone_id, target_kind, target_text, generation_floor, epoch, boot, authority_generation, reason, timestamp_ms,
    provenance }

def put_invalidation (iv : InvalidationRecord) : List UInt8 :=
  put_str iv.target_kind ++ put_str iv.target_text ++ put_gen iv.generation ++ put_gen iv.epoch ++ put_id iv.boot ++
    put_gen iv.authority_generation ++ put_str iv.reason ++ put_i64 iv.timestamp_ms ++ put_prov iv.provenance

def get_invalidation : Reader InvalidationRecord := do
  let target_kind ← str
  let target_text ← str
  let generation ← get_gen
  let epoch ← get_gen
  let boot ← get_id
  let authority_generation ← get_gen
  let reason ← str
  let timestamp_ms ← get_i64
  let provenance ← get_prov
  return { target_kind, target_text, generation, epoch, boot, authority_generation, reason, timestamp_ms, provenance }

def put_compat (c : CompatibilityRecord) : List UInt8 :=
  put_id c.compatibility_id ++ put_gen c.generation ++ put_enum c.outcome ++ put_enum c.freshness ++
    put_prov c.provenance

def get_compat : Reader CompatibilityRecord := do
  let compatibility_id ← get_id
  let generation ← get_gen
  let outcome ← get_enum
  let freshness ← get_enum
  let provenance ← get_prov
  return { compatibility_id, generation, outcome, freshness, provenance }

end RuntimeRegistry
