import RuntimeRegistry.Capability
/-!
# The descriptor model

The records the registry stores. A defaulted `operator==` compares members, so
two records are equal up to the build text of their version, which
`SemanticVersion`'s own `operator==` ignores.
-/
open Lib

namespace RuntimeRegistry

/-! ## Endpoints and protocols -/

structure EndpointDescriptor where
  endpoint_id : EndpointId := {}
  service_instance : ServiceInstanceId := {}
  generation : EndpointGeneration := {}
  protocol : ProtocolId := {}
  locator : Text := []
  transport : Enum TransportKind := TransportKind.UNKNOWN
  port : UInt16 := 0
  security : Enum EndpointSecurity := EndpointSecurity.UNKNOWN
  health : Enum Health := Health.UNKNOWN
  reachability : Enum Reachability := Reachability.UNKNOWN
  freshness : Enum Freshness := Freshness.UNKNOWN
  provenance : Provenance := {}
  authority_generation : AuthorityGeneration := {}
deriving DecidableEq

structure ProtocolDescriptor where
  protocol_id : ProtocolId := {}
  name : Text := []
  generation : ProtocolGeneration := {}
  version : ProtocolVersion := {}
  compatibility_min : ProtocolVersion := {}
  framing : Text := []
  required_capabilities : List (Enum CapabilityKind) := []
  max_payload : Int64 := 0
  provenance : Provenance := {}
deriving DecidableEq

/-! ## Runtimes, backends and devices -/

structure RuntimeDescriptor where
  runtime_id : RuntimeId := {}
  runtime_instance : RuntimeInstanceId := {}
  generation : RuntimeGeneration := {}
  kind : Enum RuntimeKind := RuntimeKind.UNKNOWN
  name : Text := []
  family : Text := []
  version : SemanticVersion := {}
  api_version : ApiVersion := {}
  abi_version : AbiVersion := {}
  build_identity : Text := []
  compiler_identity : Text := []
  supported_protocols : List ProtocolId := []
  capabilities : List CapabilityId := []
  backends : List BackendId := []
  architecture : Text := []
  device_constraint : Text := []
  provenance : Provenance := {}
  node : NodeId := {}
  owner_worker : WorkerId := {}
  owner_boot : WorkerBootId := {}
deriving DecidableEq

instance : BEq RuntimeDescriptor := ⟨fun a b => { a with version := b.version } = b && a.version == b.version⟩

structure BackendDescriptor where
  backend_id : BackendId := {}
  kind : Enum BackendKind := BackendKind.UNKNOWN
  generation : BackendGeneration := {}
  runtime_binding : RuntimeInstanceId := {}
  capabilities : List CapabilityId := []
  version : SemanticVersion := {}
  health : Enum Health := Health.UNKNOWN
  readiness : Enum Readiness := Readiness.UNKNOWN
  freshness : Enum Freshness := Freshness.UNKNOWN
  provenance : Provenance := {}
deriving DecidableEq

instance : BEq BackendDescriptor := ⟨fun a b => { a with version := b.version } = b && a.version == b.version⟩

structure DeviceDescriptor where
  device_id : DeviceId := {}
  generation : DeviceGeneration := {}
  name : Text := []
  vendor : Text := []
  architecture : Text := []
  compute_capability : Text := []
  total_memory : Int64 := 0
  free_memory : Int64 := 0
  backend_binding : Text := []
  provenance : Provenance := {}
  freshness : Enum Freshness := Freshness.UNKNOWN
  health : Enum Health := Health.UNKNOWN
deriving DecidableEq

/-! ## Services and their instances -/

structure ServiceDescriptor where
  service_id : ServiceId := {}
  kind : Enum ServiceKind := ServiceKind.UNKNOWN
  name : Text := []
  generation : ServiceGeneration := {}
  owner : OwnerId := {}
  lifecycle : Enum Lifecycle := Lifecycle.REGISTERING
  version : SemanticVersion := {}
  api_version : ApiVersion := {}
  abi_version : AbiVersion := {}
  required_capabilities : List (Enum CapabilityKind) := []
  optional_capabilities : List (Enum CapabilityKind) := []
  protocol_requirements : List ProtocolId := []
  compatibility_ref : CompatibilityId := {}
  policy_generation : PolicyGeneration := {}
  provenance : Provenance := {}
  semantic_digest : Text := []
deriving DecidableEq

instance : BEq ServiceDescriptor := ⟨fun a b => { a with version := b.version } = b && a.version == b.version⟩

structure ServiceInstance where
  instance_id : ServiceInstanceId := {}
  service_id : ServiceId := {}
  service_generation : ServiceGeneration := {}
  instance_generation : ServiceInstanceGeneration := {}
  node : NodeId := {}
  worker : WorkerId := {}
  boot : WorkerBootId := {}
  process : ProcessId := {}
  runtime_id : RuntimeId := {}
  runtime_instance : RuntimeInstanceId := {}
  endpoints : List EndpointId := []
  protocols : List ProtocolId := []
  capabilities : List CapabilityId := []
  health : Enum Health := Health.UNKNOWN
  readiness : Enum Readiness := Readiness.UNKNOWN
  freshness : Enum Freshness := Freshness.UNKNOWN
  reachability : Enum Reachability := Reachability.UNKNOWN
  lease : LeaseId := {}
  lifecycle : Enum Lifecycle := Lifecycle.REGISTERING
  version : SemanticVersion := {}
  compatibility_ref : CompatibilityId := {}
  authority_generation : AuthorityGeneration := {}
  registered_ms : Int64 := 0
  updated_ms : Int64 := 0
  expires_ms : Int64 := 0
  provenance : Provenance := {}
  semantic_digest : Text := []
deriving DecidableEq

instance : BEq ServiceInstance := ⟨fun a b => { a with version := b.version } = b && a.version == b.version⟩

/-! ## Nodes, leases, invalidations, tombstones and compatibility records -/

structure NodeDescriptor where
  node_id : NodeId := {}
  generation : NodeGeneration := {}
  hostname : Text := []
  runtimes : List RuntimeInstanceId := []
  service_instances : List ServiceInstanceId := []
  devices : List DeviceId := []
  backends : List BackendId := []
  health : Enum Health := Health.UNKNOWN
  readiness : Enum Readiness := Readiness.UNKNOWN
  freshness : Enum Freshness := Freshness.UNKNOWN
  reachability : Enum Reachability := Reachability.UNKNOWN
  provenance : Provenance := {}
deriving DecidableEq

structure LeaseDescriptor where
  lease_id : LeaseId := {}
  generation : LeaseGeneration := {}
  service_instance : ServiceInstanceId := {}
  boot : WorkerBootId := {}
  issued_ms : Int64 := 0
  renew_interval_ms : Int64 := 0
  renewal_policy : Enum LeaseRenewalPolicy := LeaseRenewalPolicy.UNKNOWN
  state : Enum LeaseState := LeaseState.UNKNOWN
  expires_ms : Int64 := 0
  provenance : Provenance := {}
  authority_generation : AuthorityGeneration := {}
deriving DecidableEq

structure InvalidationRecord where
  target_kind : Text := []
  target_text : Text := []
  generation : RecordGeneration := {}
  epoch : CoordinatorEpoch := {}
  boot : WorkerBootId := {}
  authority_generation : AuthorityGeneration := {}
  reason : Text := []
  timestamp_ms : Int64 := 0
  provenance : Provenance := {}
deriving DecidableEq

structure TombstoneRecord where
  tombstone_id : TombstoneId := {}
  target_kind : Text := []
  target_text : Text := []
  /-- Mutations at or below this are fenced. -/
  generation_floor : RecordGeneration := {}
  epoch : CoordinatorEpoch := {}
  boot : WorkerBootId := {}
  authority_generation : AuthorityGeneration := {}
  reason : Text := []
  timestamp_ms : Int64 := 0
  provenance : Provenance := {}
deriving DecidableEq

structure CompatibilityRecord where
  compatibility_id : CompatibilityId := {}
  generation : CompatibilityGeneration := {}
  outcome : Enum CompatibilityOutcome := CompatibilityOutcome.UNKNOWN
  freshness : Enum Freshness := Freshness.UNKNOWN
  provenance : Provenance := {}
deriving DecidableEq

/-! ## The authority envelope -/

/-- The authority a mutation is made under. -/
structure AuthorityEnvelope where
  epoch : CoordinatorEpoch := {}
  boot : WorkerBootId := {}
  registry_generation : RegistryGeneration := {}
  service_generation : ServiceGeneration := {}
  service_instance_generation : ServiceInstanceGeneration := {}
  runtime_generation : RuntimeGeneration := {}
  runtime_instance_generation : RuntimeInstanceGeneration := {}
  endpoint_generation : EndpointGeneration := {}
  protocol_generation : ProtocolGeneration := {}
  backend_generation : BackendGeneration := {}
  device_generation : DeviceGeneration := {}
  capability_generation : CapabilityGeneration := {}
  lease_generation : LeaseGeneration := {}
  observation_generation : ObservationGeneration := {}
  attempt_generation : AttemptGeneration := {}
  dispatch_generation : DispatchGeneration := {}
  record_generation : RecordGeneration := {}
deriving DecidableEq

end RuntimeRegistry
