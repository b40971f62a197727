import RuntimeRegistry.Lib.Runs
import RuntimeRegistry.Selection
import RuntimeRegistry.Persistence
/-!
# The registry as a state machine

An operation is one public call with its arguments. The registry takes its lock
for the whole of a call, so whatever the callers interleave is a run of single
calls. An event records the call, its reply, thrown or returned, and the order
in which the hash table of the instances was walked.
-/
open Lib

namespace RuntimeRegistry

/-- The public calls that take part in a run. The `const` ones read only. -/
inductive Op
  | begin_coordinator_epoch
  | adopt_worker (worker : WorkerId)
  | mark_worker_died (boot : WorkerBootId)
  | set_worker_health_reporting (worker : WorkerId) (enabled : Bool)
  | register_service (svc : ServiceDescriptor) (env : AuthorityEnvelope)
  | register_instance (inst : ServiceInstance) (env : AuthorityEnvelope)
  | register_runtime (rt : RuntimeDescriptor) (env : AuthorityEnvelope)
  | register_endpoint (ep : EndpointDescriptor) (env : AuthorityEnvelope)
  | register_capability (cap : CapabilityDescriptor) (env : AuthorityEnvelope)
  | register_backend (bd : BackendDescriptor) (env : AuthorityEnvelope)
  | register_device (dd : DeviceDescriptor) (env : AuthorityEnvelope)
  | register_protocol (pd : ProtocolDescriptor) (env : AuthorityEnvelope)
  | register_node (nd : NodeDescriptor) (env : AuthorityEnvelope)
  | update_health (id : ServiceInstanceId) (h : Enum Health) (env : AuthorityEnvelope)
  | update_readiness (id : ServiceInstanceId) (rd : Enum Readiness) (env : AuthorityEnvelope)
  | update_freshness (id : ServiceInstanceId) (f : Enum Freshness) (env : AuthorityEnvelope)
  | update_reachability (id : EndpointId) (rc : Enum Reachability) (env : AuthorityEnvelope)
  | update_instance_reachability (id : ServiceInstanceId) (rc : Enum Reachability) (env : AuthorityEnvelope)
  | acquire_lease (lease : LeaseDescriptor) (env : AuthorityEnvelope)
  | renew_lease (id : LeaseId) (env : AuthorityEnvelope)
  | expire_lease (id : LeaseId) (env : AuthorityEnvelope)
  | revoke_lease (id : LeaseId) (env : AuthorityEnvelope)
  | mark_lease_revalidation_required (id : LeaseId)
  | invalidate (record : InvalidationRecord) (env : AuthorityEnvelope)
  | supersede (old_id : ServiceInstanceId) (new_inst : ServiceInstance) (env : AuthorityEnvelope)
  | create_tombstone (tomb : TombstoneRecord) (env : AuthorityEnvelope)
  | deregister (id : ServiceInstanceId) (env : AuthorityEnvelope)
  | query (q : RegistryQuery)
  | query_and_account (q : RegistryQuery)
  | serialize
  | load_from (data : List UInt8)

/-- What a call returns. -/
inductive Reply
  | done
  | boot (b : WorkerBootId)
  | id (value : UInt64)
  | result (result : RegistryResult)
  | image (data : List UInt8)

/-- The envelope of a mutation. -/
def Op.envelope : Op → Option AuthorityEnvelope
  | .register_service _ env | .register_instance _ env | .register_runtime _ env | .register_endpoint _ env
  | .register_capability _ env | .register_backend _ env | .register_device _ env | .register_protocol _ env
  | .register_node _ env | .update_health _ _ env | .update_readiness _ _ env | .update_freshness _ _ env
  | .update_reachability _ _ env | .update_instance_reachability _ _ env | .acquire_lease _ env | .renew_lease _ env
  | .expire_lease _ env | .revoke_lease _ env | .invalidate _ env | .supersede _ _ env | .create_tombstone _ env
  | .deregister _ env => some env
  | .begin_coordinator_epoch | .adopt_worker _ | .mark_worker_died _ | .set_worker_health_reporting _ _
  | .mark_lease_revalidation_required _ | .query _ | .query_and_account _ | .serialize | .load_from _ => none

namespace Outcome
variable {α β : Type}

def map (f : α → β) (o : Outcome α) : Outcome β := (o.1.map f, o.2)

@[simp] theorem map_snd (f : α → β) (o : Outcome α) : (o.map f).2 = o.2 := rfl

@[simp] theorem map_fst (f : α → β) (o : Outcome α) : (o.map f).1 = o.1.map f := rfl

@[simp] theorem map_fst_error (f : α → β) (o : Outcome α) (e : RegistryError) : (o.map f).1 = .error e ↔ o.1 = .error e := by
  rcases o with ⟨_ | _, _⟩ <;> simp [map, Except.map]

@[simp] theorem map_returns (f : α → β) (o : Outcome α) : (o.map f).Returns ↔ o.Returns := by
  rcases o with ⟨_ | _, _⟩ <;> simp [Returns, map, Except.map]

end Outcome

namespace Registry

/-- One call. -/
def exec (r : Registry) (scan : List ServiceInstanceId) : Op → Outcome Reply
  | .begin_coordinator_epoch => (.ok .done, r.begin_coordinator_epoch)
  | .adopt_worker worker => (.ok (.boot (r.adopt_worker worker).1), (r.adopt_worker worker).2)
  | .mark_worker_died boot => (.ok .done, r.mark_worker_died boot)
  | .set_worker_health_reporting worker enabled => (.ok .done, r.set_worker_health_reporting worker enabled)
  | .register_service svc env => (r.register_service svc env).map fun _ => .done
  | .register_instance inst env => (r.register_instance scan inst env).map fun id => .id id.value
  | .register_runtime rt env => (r.register_runtime rt env).map fun id => .id id.value
  | .register_endpoint ep env => (r.register_endpoint ep env).map fun id => .id id.value
  | .register_capability cap env => (r.register_capability cap env).map fun id => .id id.value
  | .register_backend bd env => (r.register_backend bd env).map fun id => .id id.value
  | .register_device dd env => (r.register_device dd env).map fun id => .id id.value
  | .register_protocol pd env => (r.register_protocol pd env).map fun _ => .done
  | .register_node nd env => (r.register_node nd env).map fun _ => .done
  | .update_health id h env => (r.update_health id h env).map fun _ => .done
  | .update_readiness id rd env => (r.update_readiness id rd env).map fun _ => .done
  | .update_freshness id f env => (r.update_freshness id f env).map fun _ => .done
  | .update_reachability id rc env => (r.update_reachability id rc env).map fun _ => .done
  | .update_instance_reachability id rc env => (r.update_instance_reachability id rc env).map fun _ => .done
  | .acquire_lease lease env => (r.acquire_lease lease env).map fun id => .id id.value
  | .renew_lease id env => (r.renew_lease id env).map fun _ => .done
  | .expire_lease id env => (r.expire_lease id env).map fun _ => .done
  | .revoke_lease id env => (r.revoke_lease id env).map fun _ => .done
  | .mark_lease_revalidation_required id => (.ok .done, r.mark_lease_revalidation_required id)
  | .invalidate record env => (r.invalidate record env).map fun _ => .done
  | .supersede old_id new_inst env => (r.supersede scan old_id new_inst env).map fun _ => .done
  | .create_tombstone tomb env => (r.create_tombstone tomb env).map fun id => .id id.value
  | .deregister id env => (r.deregister id env).map fun _ => .done
  | .query q => (.ok (.result (r.query scan q)), r)
  | .query_and_account q => (.ok (.result (r.query_and_account scan q).1), (r.query_and_account scan q).2)
  | .serialize => (.ok (.image r.serialize), r)
  | .load_from data => (r.load_from data).map fun _ => .done

end Registry

structure Event where
  op : Op
  scan : List ServiceInstanceId
  reply : Except RegistryError Reply

/-- One call of a run: the walk visits every stored instance once. -/
def Step (r : Registry) (e : Event) (t : Registry) : Prop :=
  e.scan.Perm r.instances.keys ∧ r.exec e.scan e.op = (e.reply, t)

/-- The states that calls lead to from a new registry. -/
abbrev Registry.Reachable (r : Registry) : Prop := Lib.Reachable Step Registry.fresh r

/-- The call loads no image. -/
def Event.noLoad (e : Event) : Prop := ∀ data, e.op ≠ .load_from data

/-- The states that calls other than `load_from` lead to from a new registry. -/
abbrev Registry.ReachableWithoutLoad (r : Registry) : Prop :=
  Lib.Reachable (Guarded Step fun _ e => e.noLoad) Registry.fresh r

theorem Step.state {r t : Registry} {e : Event} (h : Step r e t) : t = (r.exec e.scan e.op).2 := by rw [h.2]

/-- A reply is told to be a result by evaluating it. -/
theorem exists_ok {ε α : Type} {o : Except ε α} (h : o.isOk = true) : ∃ a, o = .ok a := by
  rcases o with e | a
  · cases h
  · exact ⟨a, rfl⟩

/-! ## Scripts -/

namespace Registry

/-- The state after the calls, each walking the instances in the order of their ids. -/
def after (r : Registry) (ops : List Op) : Registry := ops.foldl (fun r op => (r.exec r.instances.keys op).2) r

/-- A call of a script: it walks the instances in the order of their ids. -/
def call (r : Registry) (op : Op) : Event := ⟨op, r.instances.keys, (r.exec r.instances.keys op).1⟩

theorem step_call (r : Registry) (op : Op) : Step r (r.call op) (r.after [op]) := ⟨.refl _, rfl⟩

/-- The calls of a script meet a condition, each in the state it is made in. -/
def Meets (P : Registry → Op → Prop) : Registry → List Op → Prop
  | _, [] => True
  | r, op :: ops => P r op ∧ Meets P (r.exec r.instances.keys op).2 ops

theorem Meets.of_forall {Q : Op → Prop} {ops : List Op} (h : ∀ op ∈ ops, Q op) (r : Registry) :
    Meets (fun _ => Q) r ops := by
  induction ops generalizing r with
  | nil => trivial
  | cons op ops ih =>
    rw [List.forall_mem_cons] at h
    exact ⟨h.1, ih h.2 _⟩

/-- A script is a run, each call with the walk that it makes. -/
theorem Meets.calls {P : Registry → Event → Prop} {r : Registry} {ops : List Op}
    (h : Meets (fun r op => P r (r.call op)) r ops) : ∃ es, Run (Guarded Step P) r es (r.after ops) := by
  induction ops generalizing r with
  | nil => exact ⟨[], .nil r⟩
  | cons op ops ih =>
    obtain ⟨es, hr⟩ := ih h.2
    exact ⟨r.call op :: es, .cons ⟨r.step_call op, h.1⟩ hr⟩

theorem Meets.run {P : Registry → Op → Prop} {r : Registry} {ops : List Op} (h : Meets P r ops) :
    ∃ es, Run (Guarded Step fun r e => P r e.op) r es (r.after ops) := h.calls

theorem run_after (r : Registry) {Q : Op → Prop} (ops : List Op) (hQ : ∀ op ∈ ops, Q op) :
    ∃ es, Run (Guarded Step fun _ e => Q e.op) r es (r.after ops) := (Meets.of_forall hQ r).run

theorem Reachable.after {r : Registry} (h : r.Reachable) (ops : List Op) : (r.after ops).Reachable := by
  obtain ⟨es, hr⟩ := run_after r (Q := fun _ => True) ops fun _ _ => trivial
  exact h.run hr.unguarded

theorem ReachableWithoutLoad.after {r : Registry} (h : r.ReachableWithoutLoad) {ops : List Op}
    (hops : ∀ op ∈ ops, ∀ data, op ≠ .load_from data) : (r.after ops).ReachableWithoutLoad := by
  obtain ⟨es, hr⟩ := run_after r ops hops
  exact h.run hr

theorem ReachableWithoutLoad.reachable {r : Registry} (h : r.ReachableWithoutLoad) : r.Reachable := by
  obtain ⟨es, hr⟩ := h
  exact ⟨es, hr.unguarded⟩

end Registry

/-! A registry with one worker, one service and one available instance of it, that
the witnesses start from. -/
namespace Sample

def env : AuthorityEnvelope := { epoch := ⟨1⟩, boot := ⟨101⟩ }

def service : ServiceDescriptor := { service_id := ⟨3⟩, generation := ⟨1⟩ }

def incarnation (id generation : UInt64) : ServiceInstance where
  instance_id := ⟨id⟩
  service_id := ⟨3⟩
  instance_generation := ⟨generation⟩
  boot := ⟨101⟩
  health := Health.HEALTHY
  readiness := Readiness.READY
  freshness := Freshness.CURRENT
  reachability := Reachability.REACHABLE

def setup : List Op := [
  .adopt_worker ⟨1⟩, .register_service service env, .register_instance (incarnation 5 1) env]

def registry : Registry := Registry.fresh.after setup

theorem registry_reachable : registry.ReachableWithoutLoad :=
  Registry.ReachableWithoutLoad.after (.refl _) (by simp [setup])

end Sample

/-! ## The envelope check of a call -/

namespace Registry
variable {α β : Type} {r : Registry} {env : AuthorityEnvelope} {body : Outcome α}

theorem rejected_map (h : ¬ r.Accepts env) (f : α → β) : ∃ e, (r.authorized env body).map f = (.error e, r) := by
  obtain ⟨e, he⟩ := authorized_rejected h body
  exact ⟨e, by rw [he]; rfl⟩

theorem rejected_void_map (h : ¬ r.Accepts env) (f : Unit → β) :
    ∃ e, (r.authorized env body).void.map f = (.error e, r) := by
  obtain ⟨e, he⟩ := authorized_rejected h body
  exact ⟨e, by rw [he]; rfl⟩

end Registry

/-- A mutation whose envelope is rejected throws and changes nothing. -/
theorem exec_rejected {r : Registry} {op : Op} {env : AuthorityEnvelope} (henv : op.envelope = some env)
    (h : ¬ r.Accepts env) (scan : List ServiceInstanceId) : ∃ e, r.exec scan op = (.error e, r) := by
  cases op <;> simp only [Op.envelope, Option.some.injEq, reduceCtorEq] at henv <;> subst henv
  case register_service => exact Registry.rejected_void_map h _
  case register_protocol => exact Registry.rejected_void_map h _
  case register_node => exact Registry.rejected_void_map h _
  all_goals exact Registry.rejected_map h _

end RuntimeRegistry
