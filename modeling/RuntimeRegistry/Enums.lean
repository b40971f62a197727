import RuntimeRegistry.Lib.Enum
import RuntimeRegistry.Identity
/-!
# The enumerations

Each is declared with its enumerators in the source's order, which is the order
of the bytes persisted for them. A record field of such a type is an `Enum`, so
it can also hold the bytes past the last enumerator that a cast lets through.
-/
open Lib

namespace RuntimeRegistry

inductive Health
  | HEALTHY | DEGRADED | UNHEALTHY | UNAVAILABLE | UNKNOWN
deriving DecidableEq

inductive Readiness
  | READY | PARTIALLY_READY | NOT_READY | DRAINING | REVALIDATION_REQUIRED | UNKNOWN
deriving DecidableEq

inductive Freshness
  | CURRENT | STALE | REVALIDATION_REQUIRED | UNKNOWN
deriving DecidableEq

inductive Reachability
  | REACHABLE | DEGRADED | UNREACHABLE | REVALIDATION_REQUIRED | UNKNOWN
deriving DecidableEq

inductive Lifecycle
  | REGISTERING | AVAILABLE | DEGRADED | DRAINING | UNREADY | STALE | UNREACHABLE | INVALIDATED | SUPERSEDED
  | TOMBSTONED | RETIRED | FAILED
deriving DecidableEq

inductive ServiceKind
  | SCHEDULER | CACHE_DIRECTORY | STATE_INDEX | STORAGE_SERVICE | CHECKPOINT_SERVICE | RESOURCE_BROKER | HEALTH_AGENT
  | FLEET_AGENT | COMPILER_SERVICE | MODEL_SERVER | TRANSFER_SERVICE | COLLECTIVE_SERVICE | OBSERVABILITY_SERVICE
  | REGISTRY_SERVICE | EXECUTION_SERVICE | GENERIC_RUNTIME_SERVICE | UNKNOWN
deriving DecidableEq

inductive RuntimeKind
  | NATIVE_CPP | CUDA_RUNTIME | CUDA_DRIVER | CUSTOM_ACCELERATOR_RUNTIME | MODEL_RUNTIME | SERVING_RUNTIME
  | STORAGE_RUNTIME | NETWORK_RUNTIME | COMPILATION_RUNTIME | SYNTHETIC_RUNTIME | UNKNOWN
deriving DecidableEq

inductive TransportKind
  | TCP | LOCAL_IPC | SHARED_MEMORY | IN_PROCESS | SYNTHETIC_REMOTE | UNKNOWN
deriving DecidableEq

inductive BackendKind
  | CUDA | CPU | LOCAL_FILESYSTEM | TCP | SYNTHETIC_REMOTE | CUSTOM | UNKNOWN
deriving DecidableEq

inductive CapabilityKind
  | CUDA_AVAILABLE | CUDA_COMPUTE_CAPABILITY | CUDA_ARCHITECTURE | CUDA_MEMORY | HOST_PINNED_MEMORY | LOCAL_FILESYSTEM
  | LOCAL_STORAGE | TCP_TRANSPORT | FRAMED_PROTOCOL | MULTIPROCESS | COMPILATION | PERSISTENCE | CHECKPOINTING
  | COLLECTIVES | REMOTE_ACCESS_CLASS | HEALTH_REPORTING | POWER_TELEMETRY | GENERIC_FEATURE | UNKNOWN
deriving DecidableEq

inductive CompatibilityOutcome
  | COMPATIBLE | COMPATIBLE_WITH_DOWNGRADE | INCOMPATIBLE | UNKNOWN
deriving DecidableEq

inductive LeaseState
  | ACTIVE | EXPIRED | REVOKED | REVALIDATION_REQUIRED | UNKNOWN
deriving DecidableEq

inductive EndpointSecurity
  | NONE | PLAINTEXT | UNKNOWN
deriving DecidableEq

inductive LeaseRenewalPolicy
  | FIXED | SESSION | CONNECTION | BOOT | MANUAL | UNKNOWN
deriving DecidableEq

inductive EvidenceKind
  | MEASURED | REPORTED | DERIVED | SYNTHETIC | UNKNOWN
deriving DecidableEq

inductive CapabilityValueKind
  | BOOLEAN | INTEGER | REAL | RANGE | STRING | STRUCTURED | UNKNOWN
deriving DecidableEq

inductive NegotiationOutcome
  | EXACT | COMPATIBLE | DOWNGRADE_ALLOWED | UPGRADE_REQUIRED | INCOMPATIBLE | INSUFFICIENT_EVIDENCE | UNKNOWN
deriving DecidableEq

inductive QueryOutcome
  | FOUND_EXACT | FOUND_COMPATIBLE | FOUND_MULTIPLE | NOT_FOUND | STALE_ONLY | UNREADY_ONLY | UNHEALTHY_ONLY
  | UNREACHABLE_ONLY | INCOMPATIBLE_ONLY | INSUFFICIENT_EVIDENCE | UNKNOWN
deriving DecidableEq

inductive VersionPolicy
  | EXACT | MINIMUM | COMPATIBLE_MAJOR | BOUNDED_RANGE | PREFER_RECENT | UNKNOWN
deriving DecidableEq

/-! ## Their enumerators, in order -/

instance : Enumerators Health where
  all := [.HEALTHY, .DEGRADED, .UNHEALTHY, .UNAVAILABLE, .UNKNOWN]
  nodup := by decide
  mem_all e := by cases e <;> decide
  small := by decide

instance : Enumerators Readiness where
  all := [.READY, .PARTIALLY_READY, .NOT_READY, .DRAINING, .REVALIDATION_REQUIRED, .UNKNOWN]
  nodup := by decide
  mem_all e := by cases e <;> decide
  small := by decide

instance : Enumerators Freshness where
  all := [.CURRENT, .STALE, .REVALIDATION_REQUIRED, .UNKNOWN]
  nodup := by decide
  mem_all e := by cases e <;> decide
  small := by decide

instance : Enumerators Reachability where
  all := [.REACHABLE, .DEGRADED, .UNREACHABLE, .REVALIDATION_REQUIRED, .UNKNOWN]
  nodup := by decide
  mem_all e := by cases e <;> decide
  small := by decide

instance : Enumerators Lifecycle where
  all := [.REGISTERING, .AVAILABLE, .DEGRADED, .DRAINING, .UNREADY, .STALE, .UNREACHABLE, .INVALIDATED, .SUPERSEDED
  , .TOMBSTONED, .RETIRED, .FAILED]
  nodup := by decide
  mem_all e := by cases e <;> decide
  small := by decide

instance : Enumerators ServiceKind where
  all := [.SCHEDULER, .CACHE_DIRECTORY, .STATE_INDEX, .STORAGE_SERVICE, .CHECKPOINT_SERVICE, .RESOURCE_BROKER
  , .HEALTH_AGENT, .FLEET_AGENT, .COMPILER_SERVICE, .MODEL_SERVER, .TRANSFER_SERVICE, .COLLECTIVE_SERVICE
  , .OBSERVABILITY_SERVICE, .REGISTRY_SERVICE, .EXECUTION_SERVICE, .GENERIC_RUNTIME_SERVICE, .UNKNOWN]
  nodup := by decide
  mem_all e := by cases e <;> decide
  small := by decide

instance : Enumerators RuntimeKind where
  all := [.NATIVE_CPP, .CUDA_RUNTIME, .CUDA_DRIVER, .CUSTOM_ACCELERATOR_RUNTIME, .MODEL_RUNTIME, .SERVING_RUNTIME
  , .STORAGE_RUNTIME, .NETWORK_RUNTIME, .COMPILATION_RUNTIME, .SYNTHETIC_RUNTIME, .UNKNOWN]
  nodup := by decide
  mem_all e := by cases e <;> decide
  small := by decide

instance : Enumerators TransportKind where
  all := [.TCP, .LOCAL_IPC, .SHARED_MEMORY, .IN_PROCESS, .SYNTHETIC_REMOTE, .UNKNOWN]
  nodup := by decide
  mem_all e := by cases e <;> decide
  small := by decide

instance : Enumerators BackendKind where
  all := [.CUDA, .CPU, .LOCAL_FILESYSTEM, .TCP, .SYNTHETIC_REMOTE, .CUSTOM, .UNKNOWN]
  nodup := by decide
  mem_all e := by cases e <;> decide
  small := by decide

instance : Enumerators CapabilityKind where
  all := [.CUDA_AVAILABLE, .CUDA_COMPUTE_CAPABILITY, .CUDA_ARCHITECTURE, .CUDA_MEMORY, .HOST_PINNED_MEMORY
  , .LOCAL_FILESYSTEM, .LOCAL_STORAGE, .TCP_TRANSPORT, .FRAMED_PROTOCOL, .MULTIPROCESS, .COMPILATION, .PERSISTENCE
  , .CHECKPOINTING, .COLLECTIVES, .REMOTE_ACCESS_CLASS, .HEALTH_REPORTING, .POWER_TELEMETRY, .GENERIC_FEATURE
  , .UNKNOWN]
  nodup := by decide
  mem_all e := by cases e <;> decide
  small := by decide

instance : Enumerators CompatibilityOutcome where
  all := [.COMPATIBLE, .COMPATIBLE_WITH_DOWNGRADE, .INCOMPATIBLE, .UNKNOWN]
  nodup := by decide
  mem_all e := by cases e <;> decide
  small := by decide

instance : Enumerators LeaseState where
  all := [.ACTIVE, .EXPIRED, .REVOKED, .REVALIDATION_REQUIRED, .UNKNOWN]
  nodup := by decide
  mem_all e := by cases e <;> decide
  small := by decide

instance : Enumerators EndpointSecurity where
  all := [.NONE, .PLAINTEXT, .UNKNOWN]
  nodup := by decide
  mem_all e := by cases e <;> decide
  small := by decide

instance : Enumerators LeaseRenewalPolicy where
  all := [.FIXED, .SESSION, .CONNECTION, .BOOT, .MANUAL, .UNKNOWN]
  nodup := by decide
  mem_all e := by cases e <;> decide
  small := by decide

instance : Enumerators EvidenceKind where
  all := [.MEASURED, .REPORTED, .DERIVED, .SYNTHETIC, .UNKNOWN]
  nodup := by decide
  mem_all e := by cases e <;> decide
  small := by decide

instance : Enumerators CapabilityValueKind where
  all := [.BOOLEAN, .INTEGER, .REAL, .RANGE, .STRING, .STRUCTURED, .UNKNOWN]
  nodup := by decide
  mem_all e := by cases e <;> decide
  small := by decide

/-- The enumerator's own name; `UNKNOWN` for a value that has none. -/
def CapabilityKind.to_string : Enum CapabilityKind → Text
  | .named .CUDA_AVAILABLE => text "CUDA_AVAILABLE"
  | .named .CUDA_COMPUTE_CAPABILITY => text "CUDA_COMPUTE_CAPABILITY"
  | .named .CUDA_ARCHITECTURE => text "CUDA_ARCHITECTURE"
  | .named .CUDA_MEMORY => text "CUDA_MEMORY"
  | .named .HOST_PINNED_MEMORY => text "HOST_PINNED_MEMORY"
  | .named .LOCAL_FILESYSTEM => text "LOCAL_FILESYSTEM"
  | .named .LOCAL_STORAGE => text "LOCAL_STORAGE"
  | .named .TCP_TRANSPORT => text "TCP_TRANSPORT"
  | .named .FRAMED_PROTOCOL => text "FRAMED_PROTOCOL"
  | .named .MULTIPROCESS => text "MULTIPROCESS"
  | .named .COMPILATION => text "COMPILATION"
  | .named .PERSISTENCE => text "PERSISTENCE"
  | .named .CHECKPOINTING => text "CHECKPOINTING"
  | .named .COLLECTIVES => text "COLLECTIVES"
  | .named .REMOTE_ACCESS_CLASS => text "REMOTE_ACCESS_CLASS"
  | .named .HEALTH_REPORTING => text "HEALTH_REPORTING"
  | .named .POWER_TELEMETRY => text "POWER_TELEMETRY"
  | .named .GENERIC_FEATURE => text "GENERIC_FEATURE"
  | .named .UNKNOWN => text "UNKNOWN"
  | .unnamed _ _ => text "UNKNOWN"

end RuntimeRegistry
