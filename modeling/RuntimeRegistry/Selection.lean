import RuntimeRegistry.Instances
import RuntimeRegistry.Lib.Rounding
/-!
# Discovery

A query walks the instances, drops the ones that fail a hard filter, with the
reason, and ranks the rest by a sum of named factors. The walk follows the
buckets of a hash table, so its order `scan` is a parameter. A score is a double,
taken as the number it stands for, and each operation on doubles rounds.
-/
open Lib

namespace RuntimeRegistry

/-! ## Queries and results -/

inductive SelectionFactor
  | EXACT_SERVICE_ID | EXACT_PROTOCOL | EXACT_API_VERSION | EXACT_ABI | CAPABILITY_COMPLETENESS | READINESS | HEALTH
  | LOCALITY | RUNTIME_PREFERENCE | VERSION_RECENCY | ENDPOINT_REACHABILITY | FRESHNESS | POLICY_PREFERENCE
deriving DecidableEq

inductive RejectionCategory
  | WRONG_KIND | WRONG_RUNTIME | STALE | INVALIDATED | TOMBSTONED | STALE_AUTHORITY | LEASE_INVALID | UNREADY
  | UNHEALTHY | UNREACHABLE | MISSING_CAPABILITY | INCOMPATIBLE_PROTOCOL | INCOMPATIBLE_API | INCOMPATIBLE_ABI
  | ARCHITECTURE_MISMATCH | BELOW_MIN_VERSION | INSUFFICIENT_EVIDENCE
deriving DecidableEq

def reject_detail : RejectionCategory → Text
  | .WRONG_KIND => text "wrong service kind"
  | .WRONG_RUNTIME => text "wrong runtime"
  | .STALE => text "stale instance"
  | .INVALIDATED => text "invalidated"
  | .TOMBSTONED => text "tombstoned"
  | .STALE_AUTHORITY => text "stale authority"
  | .LEASE_INVALID => text "invalid lease"
  | .UNREADY => text "not ready"
  | .UNHEALTHY => text "not healthy"
  | .UNREACHABLE => text "not reachable"
  | .MISSING_CAPABILITY => text "missing required capability"
  | .INCOMPATIBLE_PROTOCOL => text "incompatible protocol"
  | .INCOMPATIBLE_API => text "incompatible API"
  | .INCOMPATIBLE_ABI => text "incompatible ABI"
  | .ARCHITECTURE_MISMATCH => text "architecture mismatch"
  | .BELOW_MIN_VERSION => text "below minimum version"
  | .INSUFFICIENT_EVIDENCE => text "insufficient evidence"

structure RegistryQuery where
  service_kind : Enum ServiceKind := ServiceKind.UNKNOWN
  exact_service_id : ServiceId := {}
  runtime_kind : Enum RuntimeKind := RuntimeKind.UNKNOWN
  runtime_family : Text := []
  minimum_api : ApiVersion := {}
  has_minimum_api : Bool := false
  abi_requirement : AbiVersion := {}
  has_abi_requirement : Bool := false
  protocol_requirement : ProtocolId := {}
  protocol_version : ProtocolVersion := {}
  has_protocol_version : Bool := false
  required_capabilities : List (Enum CapabilityKind) := []
  architecture : Text := []
  required_health : Enum Health := Health.UNKNOWN
  required_readiness : Enum Readiness := Readiness.UNKNOWN
  required_freshness : Enum Freshness := Freshness.CURRENT
  required_reachability : Enum Reachability := Reachability.REACHABLE
  preferred_node : NodeId := {}
  preferred_runtime : RuntimeId := {}
  version_policy : VersionPolicy := .PREFER_RECENT
  current_only : Bool := true
  max_results : Nat := 32

structure CandidateScore where
  instance_id : ServiceInstanceId
  factors : List (SelectionFactor × ℚ)
  total : ℚ
  rank : Nat := 0
deriving DecidableEq

structure CandidateRejection where
  instance_id : ServiceInstanceId
  reason : Text
  detail : Text
  category : RejectionCategory
deriving DecidableEq

structure RegistryResult where
  outcome : QueryOutcome := .UNKNOWN
  ranked : List CandidateScore := []
  rejected : List CandidateRejection := []
  selected : List ServiceInstanceId := []
  total_considered : Nat := 0
deriving DecidableEq

/-! ## Negotiation and levels -/

def negotiate_protocol (required offered : ProtocolVersion) (exact_required : Bool) : NegotiationOutcome :=
  if required.compare offered = 0 then .EXACT
  else if exact_required then .INCOMPATIBLE
  else if required.major ≠ offered.major then .INCOMPATIBLE
  else if required.minor = offered.minor then .EXACT
  else if offered.minor > required.minor then .UPGRADE_REQUIRED
  else .DOWNGRADE_ALLOWED

/-- -1 is present, 0 not current, 1 another kind. -/
def capability_satisfaction (cap : CapabilityDescriptor) (required : Enum CapabilityKind) : Int :=
  if cap.kind ≠ required then 1 else if cap.freshness ≠ Freshness.CURRENT then 0 else -1

def readiness_meets (actual required : Enum Readiness) : Bool :=
  if required = Readiness.UNKNOWN then true
  else if required = Readiness.READY then actual = Readiness.READY || actual = Readiness.PARTIALLY_READY
  else if required = Readiness.DRAINING then actual = Readiness.DRAINING
  else if required = Readiness.PARTIALLY_READY then actual = Readiness.PARTIALLY_READY || actual = Readiness.READY
  else actual = required

def health_meets (actual required : Enum Health) : Bool :=
  if required = Health.UNKNOWN then true
  else if required = Health.HEALTHY then actual = Health.HEALTHY
  else if required = Health.DEGRADED then actual = Health.DEGRADED || actual = Health.HEALTHY
  else actual = required

def reachability_meets (actual required : Enum Reachability) : Bool :=
  if required = Reachability.UNKNOWN then true
  else if required = Reachability.REACHABLE then actual = Reachability.REACHABLE || actual = Reachability.DEGRADED
  else if required = Reachability.DEGRADED then actual = Reachability.DEGRADED || actual = Reachability.REACHABLE
  else actual = required

def freshness_meets (actual required : Enum Freshness) : Bool :=
  if required = Freshness.UNKNOWN then true
  else if required = Freshness.CURRENT then actual = Freshness.CURRENT
  else actual = required

namespace Registry

/-! ## Hard filters -/

/-- A category of rejection and its detail. -/
abbrev Rejection := RejectionCategory × Text

/-- The filters up to the protocol requirement, in the order the query tries them. -/
def rejectByState (r : Registry) (q : RegistryQuery) (inst : ServiceInstance) : Option Rejection :=
  if q.current_only && historical inst.lifecycle then
    some (.STALE, text "historical instance excluded from current lookup")
  else if inst.lifecycle = Lifecycle.STALE then some (.STALE, text "instance is stale")
  else if inst.lifecycle = Lifecycle.INVALIDATED then some (.INVALIDATED, text "instance invalidated")
  else if inst.lifecycle = Lifecycle.TOMBSTONED then some (.TOMBSTONED, text "instance tombstoned")
  else if !r.authority.is_boot_live inst.boot then
    some (.STALE_AUTHORITY, text "instance owned by a non-live incarnation")
  else if !freshness_meets inst.freshness q.required_freshness then some (.STALE, text "freshness not accepted")
  else if !r.leaseActive inst.lease then some (.LEASE_INVALID, text "lease not active")
  else if !readiness_meets inst.readiness q.required_readiness then some (.UNREADY, text "readiness not accepted")
  else if !health_meets inst.health q.required_health then some (.UNHEALTHY, text "health not accepted")
  else if !reachability_meets inst.reachability q.required_reachability then
    some (.UNREACHABLE, text "reachability not accepted")
  else none

inductive ProtocolVerdict
  | fine | incompatible | noEvidence
deriving DecidableEq

/-- The loop over the protocols of an instance; `any_proto` is its local. -/
def protocolLoop (r : Registry) (q : RegistryQuery) (any_proto : Bool) : List ProtocolId → ProtocolVerdict
  | [] => if any_proto then .fine else .noEvidence
  | pid :: pids =>
    match r.protocols[pid]? with
    | none => r.protocolLoop q any_proto pids
    | some p =>
      if negotiate_protocol q.protocol_version p.version false = .INCOMPATIBLE then .incompatible
      else r.protocolLoop q true pids

def protocolVerdict (r : Registry) (q : RegistryQuery) (inst : ServiceInstance) : ProtocolVerdict :=
  if q.protocol_requirement.value ≠ 0 ∧ q.has_protocol_version then r.protocolLoop q false inst.protocols else .fine

/-- The loop over the capabilities of an instance for one required kind; `sat` is
its local. -/
def satisfactionLoop (r : Registry) (req : Enum CapabilityKind) (sat : Int) : List CapabilityId → Int
  | [] => sat
  | cid :: cids =>
    match r.capabilities[cid]? with
    | none => r.satisfactionLoop req sat cids
    | some cap =>
      if capability_satisfaction cap req = -1 then -1
      else r.satisfactionLoop req (if capability_satisfaction cap req = 0 then 0 else sat) cids

/-- The first required capability that the instance does not have current. -/
def rejectByCapability (r : Registry) (inst : ServiceInstance) : List (Enum CapabilityKind) → Option Rejection
  | [] => none
  | req :: reqs =>
    let sat := r.satisfactionLoop req 1 inst.capabilities
    if sat = -1 then r.rejectByCapability inst reqs
    else if sat = 0 then
      some (.INSUFFICIENT_EVIDENCE, text "required capability " ++ CapabilityKind.to_string req ++ text " is UNKNOWN")
    else some (.MISSING_CAPABILITY, text "required capability " ++ CapabilityKind.to_string req ++ text " missing")

/-- The runtime filters, which only a stored runtime instance has to pass. -/
def rejectByRuntime (r : Registry) (q : RegistryQuery) (inst : ServiceInstance) : Option Rejection :=
  match r.runtime_instances[inst.runtime_instance]? with
  | none => none
  | some rt =>
    if q.runtime_kind ≠ RuntimeKind.UNKNOWN ∧ rt.kind ≠ q.runtime_kind then some (.WRONG_RUNTIME, text "wrong runtime kind")
    else if q.runtime_family ≠ [] ∧ rt.family ≠ q.runtime_family then some (.WRONG_RUNTIME, text "wrong runtime family")
    else if q.architecture ≠ [] ∧ rt.architecture ≠ [] ∧ rt.architecture ≠ q.architecture then
      some (.ARCHITECTURE_MISMATCH, text "architecture mismatch")
    else none

def rejectByVersion (q : RegistryQuery) (svc : ServiceDescriptor) : Option Rejection :=
  if q.has_minimum_api ∧ svc.api_version.compare q.minimum_api < 0 then some (.BELOW_MIN_VERSION, text "API below minimum")
  else if q.has_abi_requirement ∧ svc.abi_version.major ≠ q.abi_requirement.major then
    some (.INCOMPATIBLE_ABI, text "ABI major mismatch")
  else none

/-- The filters after the protocol requirement. -/
def rejectByRequirement (r : Registry) (q : RegistryQuery) (svc : ServiceDescriptor) (inst : ServiceInstance) :
    Option Rejection :=
  (r.rejectByCapability inst q.required_capabilities) <|> r.rejectByRuntime q inst <|> rejectByVersion q svc

/-! ## Scores -/

/-- The double nearest to a number. -/
def double (x : ℚ) : ℚ := rounded 53 x

/-- The required kinds that the instance has current. -/
def capabilityCount (r : Registry) (q : RegistryQuery) (inst : ServiceInstance) : Nat :=
  (q.required_capabilities.filter fun req => r.satisfactionLoop req 1 inst.capabilities = -1).length

/-- `major * 100 + minor * 10 + patch`, in 64 bits. -/
def recency (v : SemanticVersion) : Int64 := v.major * 100 + v.minor * 10 + v.patch

def factors (r : Registry) (q : RegistryQuery) (svc : ServiceDescriptor) (inst : ServiceInstance) :
    List (SelectionFactor × ℚ) :=
  [(.EXACT_SERVICE_ID, if q.exact_service_id.value ≠ 0 ∧ inst.service_id = q.exact_service_id then 1000 else 0),
   (.EXACT_API_VERSION, if q.has_minimum_api ∧ svc.api_version.compare q.minimum_api = 0 then 200 else 0),
   (.EXACT_ABI,
     if q.has_abi_requirement ∧ svc.abi_version.compare q.abi_requirement = 0 then 150
     else if q.has_abi_requirement ∧ svc.abi_version.major = q.abi_requirement.major then 80 else 0),
   (.CAPABILITY_COMPLETENESS,
     if q.required_capabilities = [] then 100
     else double (double (double (r.capabilityCount q inst) / double q.required_capabilities.length) * 100)),
   (.READINESS,
     if inst.readiness = Readiness.READY then 80 else if inst.readiness = Readiness.PARTIALLY_READY then 40 else 0),
   (.HEALTH, if inst.health = Health.HEALTHY then 80 else if inst.health = Health.DEGRADED then 40 else 0),
   (.LOCALITY, if q.preferred_node.value ≠ 0 ∧ inst.node = q.preferred_node then 100 else 0),
   (.RUNTIME_PREFERENCE, if q.preferred_runtime.value ≠ 0 ∧ inst.runtime_id = q.preferred_runtime then 100 else 0),
   (.VERSION_RECENCY, double (recency svc.version).toInt),
   (.ENDPOINT_REACHABILITY,
     if inst.reachability = Reachability.REACHABLE then 60
     else if inst.reachability = Reachability.DEGRADED then 30 else 0),
   (.FRESHNESS, if inst.freshness = Freshness.CURRENT then 100 else 0),
   (.POLICY_PREFERENCE, if q.version_policy = .PREFER_RECENT then 10 else 0)]

def score (r : Registry) (q : RegistryQuery) (svc : ServiceDescriptor) (inst : ServiceInstance) : CandidateScore :=
  { instance_id := inst.instance_id
    factors := r.factors q svc inst
    total := (r.factors q svc inst).foldl (fun total f => double (total + f.2)) 0 }

/-- The order of the ranking: a higher total first, a lower id among equals. -/
def before (a b : CandidateScore) : Bool :=
  if a.total ≠ b.total then a.total > b.total else a.instance_id.value < b.instance_id.value

/-! ## The walk -/

/-- The locals of `query` over the walk. -/
structure Walk where
  total_considered : Nat := 0
  rejected : List CandidateRejection := []
  ranked : List CandidateScore := []
  saw_stale : Bool := false
  saw_unready : Bool := false
  saw_unhealthy : Bool := false
  saw_unreachable : Bool := false
  saw_incompatible : Bool := false
  saw_insufficient : Bool := false
  saw_any : Bool := false

/-- The lambda `reject`. -/
def Walk.reject (w : Walk) (id : ServiceInstanceId) (rejection : Rejection) : Walk :=
  let cat := rejection.1
  { w with
    rejected := w.rejected ++ [⟨id, reject_detail cat, rejection.2, cat⟩]
    saw_stale := w.saw_stale ||
      cat ∈ [RejectionCategory.STALE, .STALE_AUTHORITY, .LEASE_INVALID, .INVALIDATED, .TOMBSTONED]
    saw_unready := w.saw_unready || cat = .UNREADY
    saw_unhealthy := w.saw_unhealthy || cat = .UNHEALTHY
    saw_unreachable := w.saw_unreachable || cat = .UNREACHABLE
    saw_incompatible := w.saw_incompatible ||
      cat ∈ [RejectionCategory.INCOMPATIBLE_PROTOCOL, .INCOMPATIBLE_API, .INCOMPATIBLE_ABI, .BELOW_MIN_VERSION,
        .ARCHITECTURE_MISMATCH, .WRONG_RUNTIME]
    saw_insufficient := w.saw_insufficient || cat = .INSUFFICIENT_EVIDENCE
    saw_any := true }

/-- The filters after the state filters; what passes them is ranked. -/
def rankOrReject (r : Registry) (q : RegistryQuery) (svc : ServiceDescriptor) (inst : ServiceInstance) (w : Walk) : Walk :=
  match r.rejectByRequirement q svc inst with
  | some rejection => w.reject inst.instance_id rejection
  | none => { w with ranked := w.ranked ++ [r.score q svc inst], saw_any := true }

/-- One instance of the walk. -/
def considerInstance (r : Registry) (q : RegistryQuery) (svc : ServiceDescriptor) (inst : ServiceInstance) (w : Walk) : Walk :=
  match r.rejectByState q inst with
  | some rejection => w.reject inst.instance_id rejection
  | none =>
    match r.protocolVerdict q inst with
    | .noEvidence => w.reject inst.instance_id (.INSUFFICIENT_EVIDENCE, text "protocol evidence insufficient")
    -- the jump out of the protocol loop lands behind the check, so the rejected instance goes on
    | .incompatible =>
      r.rankOrReject q svc inst (w.reject inst.instance_id (.INCOMPATIBLE_PROTOCOL, text "no compatible protocol"))
    | .fine => r.rankOrReject q svc inst w

def consider (r : Registry) (q : RegistryQuery) (w : Walk) (id : ServiceInstanceId) : Walk :=
  match r.instances[id]? with
  | none => w
  | some inst =>
    match r.services[inst.service_id]? with
    | none => w
    | some svc =>
      if q.exact_service_id.value ≠ 0 ∧ inst.service_id ≠ q.exact_service_id then w
      else if q.service_kind ≠ ServiceKind.UNKNOWN ∧ svc.kind ≠ q.service_kind then
        { w with saw_any := true, saw_incompatible := true }
      else r.considerInstance q svc inst { w with total_considered := w.total_considered + 1 }

/-- The outcome the query reports, from what the walk saw. -/
def outcome (w : Walk) : QueryOutcome :=
  if w.ranked ≠ [] then (if w.ranked.length = 1 then .FOUND_EXACT else .FOUND_MULTIPLE)
  else if !w.saw_any then .NOT_FOUND
  else if w.saw_insufficient && !w.saw_stale && !w.saw_unready && !w.saw_unhealthy && !w.saw_unreachable &&
      !w.saw_incompatible then .INSUFFICIENT_EVIDENCE
  else if w.saw_stale then .STALE_ONLY
  else if w.saw_unready then .UNREADY_ONLY
  else if w.saw_unhealthy then .UNHEALTHY_ONLY
  else if w.saw_unreachable then .UNREACHABLE_ONLY
  else if w.saw_incompatible then .INCOMPATIBLE_ONLY
  else .INSUFFICIENT_EVIDENCE

def query (r : Registry) (scan : List ServiceInstanceId) (q : RegistryQuery) : RegistryResult :=
  let w := scan.foldl (r.consider q) {}
  let ranked := (w.ranked.insertionSort fun a b => !before b a).mapIdx fun i cs => { cs with rank := i }
  { outcome := outcome w
    ranked := ranked
    rejected := w.rejected
    selected := (ranked.map (·.instance_id)).take q.max_results
    total_considered := w.total_considered }

def query_and_account (r : Registry) (scan : List ServiceInstanceId) (q : RegistryQuery) : RegistryResult × Registry :=
  let result := r.query scan q
  let a := { r.accounting with queries := r.accounting.queries + 1 }
  (result,
    { r with accounting := match result.outcome with
      | .FOUND_EXACT => { a with exact_hits := a.exact_hits + 1 }
      | .FOUND_MULTIPLE | .FOUND_COMPATIBLE => { a with compatible_hits := a.compatible_hits + 1 }
      | .NOT_FOUND => { a with misses := a.misses + 1 }
      | .STALE_ONLY => { a with stale_only := a.stale_only + 1 }
      | .UNREADY_ONLY => { a with unready_only := a.unready_only + 1 }
      | .INCOMPATIBLE_ONLY => { a with incompatible := a.incompatible + 1 }
      | _ => a })

end Registry

end RuntimeRegistry
