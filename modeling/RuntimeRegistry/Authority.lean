import RuntimeRegistry.State
/-!
# Authority

Epochs, worker incarnations and the envelope check that every mutation makes
first. A boot is live from its adoption until its worker dies or is adopted
again, or a new epoch begins.
-/
open Lib

namespace RuntimeRegistry

namespace Registry

/-! ## Coordinator epochs -/

def revalidateInstance (inst : ServiceInstance) : ServiceInstance :=
  let inst :=
    if inst.lifecycle = Lifecycle.AVAILABLE ∨ inst.lifecycle = Lifecycle.DEGRADED ∨
        inst.lifecycle = Lifecycle.UNREADY then
      { inst with
        freshness := Freshness.REVALIDATION_REQUIRED
        reachability := Reachability.REVALIDATION_REQUIRED
        lifecycle :=
          if inst.lifecycle = Lifecycle.AVAILABLE ∨ inst.lifecycle = Lifecycle.DEGRADED then Lifecycle.UNREADY
          else inst.lifecycle }
    else inst
  { inst with updated_ms := 0 }

def revalidateEndpoint (ep : EndpointDescriptor) : EndpointDescriptor :=
  if ep.transport = TransportKind.IN_PROCESS ∨ ep.transport = TransportKind.LOCAL_IPC then
    { ep with freshness := Freshness.REVALIDATION_REQUIRED, reachability := Reachability.REVALIDATION_REQUIRED }
  else if ep.transport = TransportKind.TCP then { ep with reachability := Reachability.REVALIDATION_REQUIRED }
  else ep

def revalidateCapability (cap : CapabilityDescriptor) : CapabilityDescriptor :=
  if cap.freshness = Freshness.CURRENT ∧ cap.provenance.is_physical then
    { cap with freshness := Freshness.REVALIDATION_REQUIRED }
  else cap

def revalidateLease (lease : LeaseDescriptor) : LeaseDescriptor :=
  if lease.state = LeaseState.ACTIVE then { lease with state := LeaseState.REVALIDATION_REQUIRED } else lease

/-- A fresh epoch: no incarnation survives it, and what was live has to be
validated again. -/
def begin_coordinator_epoch (r : Registry) : Registry :=
  { r with
    authority := { r.authority with
      epoch := r.authority.epoch.succ, live_boots := ∅, current_boot := ∅, boot_worker := ∅ }
    instances := r.instances.map fun _ => revalidateInstance
    endpoints := r.endpoints.map fun _ => revalidateEndpoint
    capabilities := r.capabilities.map fun _ => revalidateCapability
    leases := r.leases.map fun _ => revalidateLease }

/-! ## Worker incarnations -/

/-- The lease of a dead instance expires if it was active. -/
def expireLeaseOf (r : Registry) (inst : ServiceInstance) : Registry :=
  if inst.lease.value ≠ 0 then
    match r.leases[inst.lease]? with
    | some lease =>
      if lease.state = LeaseState.ACTIVE then
        { r with
          leases := r.leases.insert inst.lease { lease with state := LeaseState.EXPIRED }
          accounting := { r.accounting with
            expired_leases := r.accounting.expired_leases + 1
            active_leases := decrement r.accounting.active_leases } }
      else r
    | none => r
  else r

/-- An instance whose process is gone. -/
def deadInstance (inst : ServiceInstance) : ServiceInstance :=
  { inst with
    lifecycle := Lifecycle.STALE, freshness := Freshness.STALE
    reachability := Reachability.UNREACHABLE, readiness := Readiness.NOT_READY }

/-- The endpoint is given up by the dead instance `id`, if it was bound to it. -/
def releaseEndpoint (id : ServiceInstanceId) (endpoints : Map .EndpointId EndpointDescriptor) (eid : EndpointId) :
    Map .EndpointId EndpointDescriptor :=
  match endpoints[eid]? with
  | some ep =>
    if ep.service_instance = id then
      endpoints.insert eid { ep with service_instance := {}, reachability := Reachability.UNREACHABLE }
    else endpoints
  | none => endpoints

/-- One round of the loop of `revoke_boot_internal` over the instances. -/
def revokeInstance (boot : WorkerBootId) (r : Registry) (id : ServiceInstanceId) : Registry :=
  match r.instances[id]? with
  | some inst =>
    if inst.boot = boot then
      let r := r.expireLeaseOf inst
      { r with
        instances := r.instances.insert id (deadInstance inst)
        endpoints := inst.endpoints.foldl (releaseEndpoint inst.instance_id) r.endpoints }
    else r
  | none => r

/-- The part of `revoke_boot_internal` that writes the authority state. -/
def revokeAuthority (a : RegistryAuthority) (boot : WorkerBootId) : RegistryAuthority :=
  let owner := a.boot_owner boot
  { a with
    live_boots := a.live_boots.erase boot
    current_boot := if a.current_boot[owner]? = some boot then a.current_boot.insert owner {} else a.current_boot
    boot_worker := a.boot_worker.erase boot }

def revoke_boot_internal (r : Registry) (boot : WorkerBootId) : Registry :=
  if r.authority.is_boot_live boot then
    r.instances.keys.foldl (revokeInstance boot) { r with authority := revokeAuthority r.authority boot }
  else r

def adopt_worker (r : Registry) (worker : WorkerId) : WorkerBootId × Registry :=
  let r := { r with next_boot := r.next_boot + 1 }
  let new_boot : WorkerBootId := ⟨r.next_boot⟩
  let r :=
    match r.authority.current_boot[worker]? with
    | some prev => if prev ≠ new_boot then r.revoke_boot_internal prev else r
    | none => r
  (new_boot,
    { r with
      authority := { r.authority with
        current_boot := r.authority.current_boot.insert worker new_boot
        live_boots := r.authority.live_boots.insert new_boot
        boot_worker := r.authority.boot_worker.insert new_boot worker }
      accounting := { r.accounting with worker_restarts := r.accounting.worker_restarts + 1 } })

def mark_worker_died (r : Registry) (boot : WorkerBootId) : Registry := r.revoke_boot_internal boot

/-- Reserved: no state change. -/
def set_worker_health_reporting (r : Registry) (_worker : WorkerId) (_enabled : Bool) : Registry := r

/-! ## The envelope check -/

structure AuthorityVerdict where
  accept : Bool := false
  kind : ErrorKind := .INTERNAL
  reason : Text := []

def validate_envelope (r : Registry) (env : AuthorityEnvelope) : AuthorityVerdict :=
  if env.epoch ≠ r.authority.epoch then
    { kind := .STALE_EPOCH
      reason := text "epoch " ++ to_string env.epoch.value ++ text " is stale; current epoch " ++
        to_string r.authority.epoch.value }
  else if !r.authority.is_boot_live env.boot then
    { kind := .STALE_BOOT
      reason := text "boot " ++ to_string env.boot.value ++ text " is not a live incarnation" }
  else { accept := true }

/-- The first lines of every mutation: a rejected envelope throws. -/
def authorized {α : Type} (r : Registry) (env : AuthorityEnvelope) (body : Outcome α) : Outcome α :=
  let v := r.validate_envelope env
  if !v.accept then (.error ⟨v.kind, v.reason⟩, r) else body

/-- The envelope names the current epoch and a live boot. -/
def Accepts (r : Registry) (env : AuthorityEnvelope) : Prop :=
  env.epoch = r.authority.epoch ∧ r.authority.is_boot_live env.boot

instance (r : Registry) (env : AuthorityEnvelope) : Decidable (r.Accepts env) := inferInstanceAs (Decidable (_ ∧ _))

theorem validate_envelope_accept {r : Registry} {env : AuthorityEnvelope} :
    (r.validate_envelope env).accept = true ↔ r.Accepts env := by
  unfold validate_envelope Accepts
  split_ifs <;> simp_all

/-- A rejected envelope throws and leaves the state as it was. -/
theorem authorized_rejected {α : Type} {r : Registry} {env : AuthorityEnvelope} (h : ¬ r.Accepts env) (body : Outcome α) :
    ∃ e, r.authorized env body = (.error e, r) := by
  have hv : (r.validate_envelope env).accept = false := by simpa using mt validate_envelope_accept.1 h
  exact ⟨⟨_, _⟩, by simp only [authorized, hv]; rfl⟩

theorem authorized_accepted {α : Type} {r : Registry} {env : AuthorityEnvelope} {body : Outcome α} (h : r.Accepts env) :
    r.authorized env body = body := by
  simp [authorized, validate_envelope_accept.2 h]

end Registry

end RuntimeRegistry
