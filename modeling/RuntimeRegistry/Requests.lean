import RuntimeRegistry.Lib.Numerals
import RuntimeRegistry.Coordinator
import RuntimeRegistry.Frames
/-!
# Requests

A line is cut at its commas, and the first field names the command. The fields that
a command needs are read by position, without a look at how many there are, and the
numbers among them by readers that throw what the loop does not catch.
-/
open Lib

namespace RuntimeRegistry

/-! ## Names -/

/-- The enumerator of the name in the table, or the fallback. -/
def enum_from {α : Type} (s : Text) (table : List (α × Text)) (fallback : α) : α :=
  match table with
  | [] => fallback
  | (e, name) :: table => if s = name then e else enum_from s table fallback

def service_kind_from_string (s : Text) : ServiceKind :=
  enum_from s [
    (.SCHEDULER, text "SCHEDULER"),
    (.CACHE_DIRECTORY, text "CACHE_DIRECTORY"),
    (.STATE_INDEX, text "STATE_INDEX"),
    (.STORAGE_SERVICE, text "STORAGE_SERVICE"),
    (.CHECKPOINT_SERVICE, text "CHECKPOINT_SERVICE"),
    (.RESOURCE_BROKER, text "RESOURCE_BROKER"),
    (.HEALTH_AGENT, text "HEALTH_AGENT"),
    (.FLEET_AGENT, text "FLEET_AGENT"),
    (.COMPILER_SERVICE, text "COMPILER_SERVICE"),
    (.MODEL_SERVER, text "MODEL_SERVER"),
    (.TRANSFER_SERVICE, text "TRANSFER_SERVICE"),
    (.COLLECTIVE_SERVICE, text "COLLECTIVE_SERVICE"),
    (.OBSERVABILITY_SERVICE, text "OBSERVABILITY_SERVICE"),
    (.REGISTRY_SERVICE, text "REGISTRY_SERVICE"),
    (.EXECUTION_SERVICE, text "EXECUTION_SERVICE"),
    (.GENERIC_RUNTIME_SERVICE, text "GENERIC_RUNTIME_SERVICE")] .UNKNOWN

def capability_kind_from_string (s : Text) : CapabilityKind :=
  enum_from s [
    (.CUDA_AVAILABLE, text "CUDA_AVAILABLE"),
    (.CUDA_COMPUTE_CAPABILITY, text "CUDA_COMPUTE_CAPABILITY"),
    (.CUDA_ARCHITECTURE, text "CUDA_ARCHITECTURE"),
    (.CUDA_MEMORY, text "CUDA_MEMORY"),
    (.HOST_PINNED_MEMORY, text "HOST_PINNED_MEMORY"),
    (.LOCAL_FILESYSTEM, text "LOCAL_FILESYSTEM"),
    (.LOCAL_STORAGE, text "LOCAL_STORAGE"),
    (.TCP_TRANSPORT, text "TCP_TRANSPORT"),
    (.FRAMED_PROTOCOL, text "FRAMED_PROTOCOL"),
    (.MULTIPROCESS, text "MULTIPROCESS"),
    (.COMPILATION, text "COMPILATION"),
    (.PERSISTENCE, text "PERSISTENCE"),
    (.CHECKPOINTING, text "CHECKPOINTING"),
    (.COLLECTIVES, text "COLLECTIVES"),
    (.REMOTE_ACCESS_CLASS, text "REMOTE_ACCESS_CLASS"),
    (.HEALTH_REPORTING, text "HEALTH_REPORTING"),
    (.POWER_TELEMETRY, text "POWER_TELEMETRY"),
    (.GENERIC_FEATURE, text "GENERIC_FEATURE")] .UNKNOWN

def QueryOutcome.to_string : QueryOutcome → Text
  | .FOUND_EXACT => text "FOUND_EXACT"
  | .FOUND_COMPATIBLE => text "FOUND_COMPATIBLE"
  | .FOUND_MULTIPLE => text "FOUND_MULTIPLE"
  | .NOT_FOUND => text "NOT_FOUND"
  | .STALE_ONLY => text "STALE_ONLY"
  | .UNREADY_ONLY => text "UNREADY_ONLY"
  | .UNHEALTHY_ONLY => text "UNHEALTHY_ONLY"
  | .UNREACHABLE_ONLY => text "UNREACHABLE_ONLY"
  | .INCOMPATIBLE_ONLY => text "INCOMPATIBLE_ONLY"
  | .INSUFFICIENT_EVIDENCE => text "INSUFFICIENT_EVIDENCE"
  | .UNKNOWN => text "UNKNOWN"

/-! ## Fields -/

/-- What the loop does not survive: a field that is not there, or what the readers
of numbers throw. -/
inductive Crash
  | no_field (i : ℕ)
  | invalid_argument
  | out_of_range
deriving DecidableEq

/-- The fields read so far and the one being read. -/
def splitRound (sep : UInt8) (s : List Text × Text) (c : UInt8) : List Text × Text :=
  if c = sep then (s.1 ++ [s.2], []) else (s.1, s.2 ++ [c])

def split (s : Text) (sep : UInt8) : List Text :=
  let (out, cur) := s.foldl (splitRound sep) ([], [])
  out ++ [cur]

/-- `p[i]` -/
def field (p : List Text) (i : ℕ) : Except Crash Text :=
  match p[i]? with
  | some t => .ok t
  | none => .error (.no_field i)

/-- `std::stoull`: a minus sign takes the value from 2^64. -/
def stoull (s : Text) : Except Crash UInt64 :=
  match Numeral.read s with
  | none => .error .invalid_argument
  | some n =>
    if n.magnitude < 2 ^ 64 then
      .ok (if n.negative then 0 - UInt64.ofNat n.magnitude else UInt64.ofNat n.magnitude)
    else .error .out_of_range

/-- `std::stoi` -/
def stoi (s : Text) : Except Crash Int32 :=
  match Numeral.read s with
  | none => .error .invalid_argument
  | some n =>
    let v : Int := if n.negative then -n.magnitude else n.magnitude
    if -2 ^ 31 ≤ v ∧ v < 2 ^ 31 then .ok (Int32.ofInt v) else .error .out_of_range

/-! ## Requests -/

/-- `SemanticVersion::parse("1.0.0").value()` -/
def version_1 : SemanticVersion := { major := 1 }

def make_provenance (kind : EvidenceKind) (source : Text) (timestamp_ms : Int64) : Provenance :=
  { kind := kind, source := source, timestamp_ms := timestamp_ms }

/-- A line that is answered without a look at its fields, or one that is read into a record. -/
inductive Request
  | refused (reply : Text)
  | message (m : Message)

/-! The branches of the loop, as far as they read the fields. -/

def readHello (p : List Text) : Except Crash Request := do
  let worker ← stoull (← field p 1)
  return .message (.HELLO ⟨worker⟩)

def readQuery (p : List Text) : Except Crash Request := do
  let kind ← field p 1
  return .message (.QUERY { service_kind := service_kind_from_string kind })

def readRuntime (p : List Text) : Except Crash Request := do
  let runtime_id ← stoull (← field p 1)
  let runtime_instance ← stoull (← field p 2)
  let generation ← stoull (← field p 3)
  let name ← field p 4
  let family ← field p 5
  let architecture ← field p 6
  return .message (.REG_RT {
    runtime_id := ⟨runtime_id⟩, runtime_instance := ⟨runtime_instance⟩, generation := ⟨generation⟩
    kind := RuntimeKind.NATIVE_CPP, name := name
    family := if family = text "cuda" then text "cuda" else text "cpp"
    version := version_1, api_version := { major := 1 }, abi_version := { major := 1 }, architecture := architecture })

def readService (p : List Text) : Except Crash Request := do
  let service_id ← stoull (← field p 1)
  let generation ← stoull (← field p 2)
  let kind ← field p 3
  let name ← field p 4
  return .message (.REG_SV {
    service_id := ⟨service_id⟩, generation := ⟨generation⟩, kind := service_kind_from_string kind, name := name
    version := version_1, api_version := { major := 1 }, abi_version := { major := 1 }
    required_capabilities := if p[5]? = some (text "CUDA") then [CapabilityKind.CUDA_AVAILABLE] else [] })

def readEndpoint (p : List Text) : Except Crash Request := do
  let endpoint_id ← stoull (← field p 1)
  let generation ← stoull (← field p 2)
  let locator ← field p 3
  let port ← stoi (← field p 3)
  return .message (.REG_EP {
    endpoint_id := ⟨endpoint_id⟩, generation := ⟨generation⟩, protocol := ⟨1⟩
    locator := text "127.0.0.1:" ++ locator, transport := TransportKind.TCP, port := port.toUInt32.toUInt16
    health := Health.HEALTHY, reachability := Reachability.REACHABLE, freshness := Freshness.CURRENT
    provenance := make_provenance .MEASURED (text "probe") 0 })

def readCapability (p : List Text) : Except Crash Request := do
  let capability_id ← stoull (← field p 1)
  let kind ← field p 2
  return .message (.REG_CA {
    capability_id := ⟨capability_id⟩, kind := capability_kind_from_string kind, generation := ⟨1⟩
    version := version_1, value := { kind := CapabilityValueKind.BOOLEAN, boolean := true }
    freshness := Freshness.CURRENT, provenance := make_provenance .MEASURED (text "dev") 0 })

/-- The worker and the boot are those of the session. -/
def readInstance (p : List Text) : Except Crash Request := do
  let service_id ← stoull (← field p 1)
  let instance_generation ← stoull (← field p 2)
  let node ← stoull (← field p 3)
  let runtime_id ← stoull (← field p 4)
  let runtime_instance ← stoull (← field p 5)
  let endpoint ← stoull (← field p 6)
  let capability ← stoull (← field p 7)
  return .message (.REG_IN {
    service_id := ⟨service_id⟩, service_generation := ⟨1⟩, instance_generation := ⟨instance_generation⟩
    node := ⟨node⟩, runtime_id := ⟨runtime_id⟩, runtime_instance := ⟨runtime_instance⟩
    endpoints := [⟨endpoint⟩], capabilities := [⟨capability⟩]
    health := Health.HEALTHY, readiness := Readiness.READY, freshness := Freshness.CURRENT
    reachability := Reachability.REACHABLE, version := version_1
    provenance := make_provenance .REPORTED (text "worker") 0, lifecycle := Lifecycle.REGISTERING })

def readHealth (p : List Text) : Except Crash Request := do
  let generation ← stoull (← field p 3)
  let id ← stoull (← field p 1)
  let health ← field p 2
  return .message (.UH ⟨id⟩ (if health = text "HEALTHY" then Health.HEALTHY else Health.DEGRADED) ⟨generation⟩)

def readReadiness (p : List Text) : Except Crash Request := do
  let generation ← stoull (← field p 3)
  let id ← stoull (← field p 1)
  let readiness ← field p 2
  return .message (.UR ⟨id⟩ (if readiness = text "READY" then Readiness.READY else Readiness.NOT_READY) ⟨generation⟩)

/-- The chain of comparisons with `op`. -/
def request (has_worker : Bool) (p : List Text) : Except Crash Request := do
  let op ← field p 0
  if op = text "HELLO" then readHello p
  else if op = text "PING" then return .message .PING
  else if op = text "QUERY" then readQuery p
  else if !has_worker then return .refused (text "NO_WORKER")
  else if op = text "REG_RT" then readRuntime p
  else if op = text "REG_SV" then readService p
  else if op = text "REG_EP" then readEndpoint p
  else if op = text "REG_CA" then readCapability p
  else if op = text "REG_IN" then readInstance p
  else if op = text "UH" then readHealth p
  else if op = text "UR" then readReadiness p
  else return .refused (text "UNKNOWN_OP")

/-! ## Replies -/

/-- The reply to a query: the outcome, and the ids that are ranked. -/
def result_text (res : RegistryResult) : Text :=
  res.ranked.foldl (fun out cs => out ++ (text "," ++ to_string cs.instance_id.value))
    (text "RESULT_" ++ res.outcome.to_string)

/-- The reply to a mutation: what it returned, or the text of what it threw. -/
def answer {α : Type} (o : Outcome α) (done : α → Text) : Frame :=
  match o.1 with
  | .ok a => { kind := .ACK, payload := done a }
  | .error e => { kind := .ERROR, payload := e.message }

namespace Coordinator

def envelope (c : Coordinator) (conn : ℕ) : AuthorityEnvelope := { epoch := c.epoch, boot := (c.sessions conn).boot }

/-- The frame that goes back for a message. -/
def reply (c : Coordinator) (conn : ℕ) (scan : List ServiceInstanceId) : Message → Frame
  | .HELLO worker =>
    { kind := .ACK, payload := text "BOOT=" ++ to_string (c.registry.adopt_worker worker).1.value }
  | .PING => { kind := .ACK, payload := text "PONG" }
  | .QUERY q => { kind := .QUERY_RESULT, payload := result_text (c.registry.query scan q) }
  | .REG_RT rt => answer (c.registry.register_runtime rt (c.envelope conn)) fun _ => text "OK"
  | .REG_SV svc => answer (c.registry.register_service svc (c.envelope conn)) fun _ => text "OK"
  | .REG_EP ep => answer (c.registry.register_endpoint ep (c.envelope conn)) fun _ => text "OK"
  | .REG_CA cap => answer (c.registry.register_capability cap (c.envelope conn)) fun _ => text "OK"
  | .REG_IN inst =>
    let s := c.sessions conn
    answer (c.registry.register_instance scan { inst with worker := s.worker, boot := s.boot } (c.envelope conn))
      fun id => text "ID=" ++ to_string id.value
  | .UH id h generation =>
    answer (c.registry.update_health id h { c.envelope conn with service_instance_generation := generation })
      fun _ => text "OK"
  | .UR id rd generation =>
    answer (c.registry.update_readiness id rd { c.envelope conn with service_instance_generation := generation })
      fun _ => text "OK"

/-- One round of the loop of `handle_connection` from the line on: the state it
leaves, and the bytes it sends. -/
def process (c : Coordinator) (conn : ℕ) (scan : List ServiceInstanceId) (line : Text) :
    Except Crash (Coordinator × List UInt8) :=
  match request (c.sessions conn).has_worker (split line ','.toUInt8) with
  | .error e => .error e
  | .ok (.refused t) => .ok (c, encode_frame { kind := .ERROR, payload := t })
  | .ok (.message m) => .ok (c.handle conn scan m, encode_frame (c.reply conn scan m))

end Coordinator

end RuntimeRegistry
