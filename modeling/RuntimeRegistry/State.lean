import RuntimeRegistry.Model
/-!
# The state of a registry

Everything the registry holds between two calls: the authority state, the
accounting, the record maps, the histories and the derived indexes. A call that
throws keeps what it wrote before, so an outcome is the result or the error
together with the state it leaves.
-/
open Lib

namespace RuntimeRegistry

/-! ## Errors -/

inductive ErrorKind
  | STALE_EPOCH | STALE_BOOT | STALE_REGISTRY_GENERATION | STALE_SERVICE_GENERATION | STALE_INSTANCE_GENERATION
  | STALE_RUNTIME_GENERATION | STALE_ENDPOINT_GENERATION | STALE_CAPABILITY_GENERATION | STALE_LEASE_GENERATION
  | STALE_HEALTH | STALE_READINESS | STALE_REACHABILITY | STALE_INVALIDATION | STALE_TOMBSTONE | STALE_ATTEMPT
  | STALE_DISPATCH | DUPLICATE_CONFLICT | STALE_RENEWAL | TOMBSTONE_RESURRECTION | UNKNOWN_IDENTITY | NOT_CURRENT
  | UNREADY_ONLY | MALFORMED | INSUFFICIENT_EVIDENCE | INCOMPATIBLE | RESOURCE_BOUND | INTERNAL
deriving DecidableEq

structure RegistryError where
  kind : ErrorKind
  message : Text
deriving DecidableEq

/-! ## Authority -/

/-- Live authority state: the incarnations and the generation counters. -/
structure RegistryAuthority where
  epoch : CoordinatorEpoch := {}
  registry_generation : RegistryGeneration := {}
  record_generation : RecordGeneration := {}
  current_boot : Map .WorkerId WorkerBootId := ∅
  live_boots : Std.ExtTreeSet WorkerBootId := ∅
  boot_worker : Map .WorkerBootId WorkerId := ∅
  service_gen : ServiceGeneration := {}
  instance_gen : ServiceInstanceGeneration := {}
  runtime_gen : RuntimeGeneration := {}
  runtime_instance_gen : RuntimeInstanceGeneration := {}
  endpoint_gen : EndpointGeneration := {}
  protocol_gen : ProtocolGeneration := {}
  backend_gen : BackendGeneration := {}
  device_gen : DeviceGeneration := {}
  capability_gen : CapabilityGeneration := {}
  lease_gen : LeaseGeneration := {}
  node_gen : NodeGeneration := {}
  compat_gen : CompatibilityGeneration := {}
  trust_gen : TrustGeneration := {}
  authority_gen : AuthorityGeneration := {}

namespace RegistryAuthority

def is_boot_live (a : RegistryAuthority) (boot : WorkerBootId) : Bool := a.live_boots.contains boot

def boot_owner (a : RegistryAuthority) (boot : WorkerBootId) : WorkerId := a.boot_worker.getD boot {}

end RegistryAuthority

/-! ## Accounting -/

/-- The counters. They are 64-bit in the source and move by one a call, so they
are unbounded here. -/
structure Accounting where
  services : Int := 0
  service_instances : Int := 0
  runtimes : Int := 0
  runtime_instances : Int := 0
  nodes : Int := 0
  endpoints : Int := 0
  protocols : Int := 0
  backends : Int := 0
  devices : Int := 0
  capabilities : Int := 0
  leases : Int := 0
  available_instances : Int := 0
  degraded_instances : Int := 0
  stale_instances : Int := 0
  unreachable_instances : Int := 0
  active_leases : Int := 0
  expired_leases : Int := 0
  registrations : Int := 0
  deregistrations : Int := 0
  supersessions : Int := 0
  invalidations : Int := 0
  tombstones : Int := 0
  queries : Int := 0
  exact_hits : Int := 0
  compatible_hits : Int := 0
  misses : Int := 0
  stale_only : Int := 0
  unready_only : Int := 0
  incompatible : Int := 0
  stale_mutation_rejections : Int := 0
  duplicate_conflict_rejections : Int := 0
  worker_restarts : Int := 0
deriving DecidableEq

/-- `if (n > 0) --n;` -/
def decrement (n : Int) : Int := if n > 0 then n - 1 else n

/-! ## The registry -/

/-- A derived index: for each key, the set of ids under it. -/
abbrev Index (κ α : Type) [Ord κ] [Ord α] := Std.ExtTreeMap κ (Std.ExtTreeSet α)

/-- `index[key].insert(a)` -/
def Index.add {κ α : Type} [Ord κ] [Std.TransOrd κ] [Std.LawfulEqOrd κ] [Ord α] [Std.TransOrd α]
    (index : Index κ α) (key : κ) (a : α) : Index κ α :=
  index.insert key ((index.getD key ∅).insert a)

structure Registry where
  authority : RegistryAuthority := {}
  accounting : Accounting := {}
  services : Map .ServiceId ServiceDescriptor := ∅
  instances : Map .ServiceInstanceId ServiceInstance := ∅
  runtimes : Map .RuntimeId RuntimeDescriptor := ∅
  runtime_instances : Map .RuntimeInstanceId RuntimeDescriptor := ∅
  endpoints : Map .EndpointId EndpointDescriptor := ∅
  protocols : Map .ProtocolId ProtocolDescriptor := ∅
  backends : Map .BackendId BackendDescriptor := ∅
  devices : Map .DeviceId DeviceDescriptor := ∅
  capabilities : Map .CapabilityId CapabilityDescriptor := ∅
  nodes : Map .NodeId NodeDescriptor := ∅
  leases : Map .LeaseId LeaseDescriptor := ∅
  tombstones : Map .TombstoneId TombstoneRecord := ∅
  compat_records : Map .CompatibilityId CompatibilityRecord := ∅
  invalidations : List InvalidationRecord := []
  instance_history : List ServiceInstance := []
  runtime_history : List RuntimeDescriptor := []
  endpoint_history : List EndpointDescriptor := []
  capability_history : List CapabilityDescriptor := []
  index_by_kind : Index (Enum ServiceKind) ServiceId := ∅
  index_by_service : Index ServiceId ServiceInstanceId := ∅
  index_by_boot : Index WorkerBootId ServiceInstanceId := ∅
  index_by_node : Index NodeId ServiceInstanceId := ∅
  next_boot : UInt64 := 0
  next_id : UInt64 := 0

/-- What a call gives back, with the state it leaves: a thrown error undoes nothing. -/
abbrev Outcome (α : Type) := Except RegistryError α × Registry

namespace Outcome
variable {α β : Type}

/-- The call goes on with `k` unless it has thrown. -/
def andThen (o : Outcome α) (k : α → Registry → Outcome β) : Outcome β :=
  match o with
  | (.ok a, r) => k a r
  | (.error e, r) => (.error e, r)

/-- A call whose result is dropped. -/
def void (o : Outcome α) : Outcome Unit := o.andThen fun _ r => (.ok (), r)

@[simp] theorem andThen_ok (a : α) (r : Registry) (k : α → Registry → Outcome β) : andThen (.ok a, r) k = k a r := rfl

@[simp] theorem andThen_error (e : RegistryError) (r : Registry) (k : α → Registry → Outcome β) :
    andThen (.error e, r) k = (.error e, r) := rfl

/-- The call returns normally. -/
def Returns (o : Outcome α) : Prop := ∃ a, o.1 = .ok a

@[simp] theorem returns_ok (a : α) (r : Registry) : Returns (.ok a, r) := ⟨a, rfl⟩

@[simp] theorem not_returns_error (e : RegistryError) (r : Registry) : ¬ Returns ((.error e, r) : Outcome α) := by
  rintro ⟨a, h⟩
  cases h

@[simp] theorem void_returns (o : Outcome α) : o.void.Returns ↔ o.Returns := by
  rcases o with ⟨_ | _, _⟩ <;> simp [Returns, void, andThen]

@[simp] theorem void_snd (o : Outcome α) : o.void.2 = o.2 := by
  rcases o with ⟨_ | _, _⟩ <;> rfl

@[simp] theorem void_fst_error (o : Outcome α) (e : RegistryError) : o.void.1 = .error e ↔ o.1 = .error e := by
  rcases o with ⟨_ | _, _⟩ <;> simp [void, andThen]

end Outcome

namespace Registry

/-! ## Counters and indexes -/

def commit_registry_generation (r : Registry) : Registry :=
  { r with authority := { r.authority with
      registry_generation := r.authority.registry_generation.succ
      record_generation := r.authority.record_generation.succ
      authority_gen := r.authority.authority_gen.succ } }

/-- `++accounting_.duplicate_conflict_rejections` -/
def countDuplicate (r : Registry) : Registry :=
  { r with accounting := { r.accounting with
      duplicate_conflict_rejections := r.accounting.duplicate_conflict_rejections + 1 } }

/-- `++accounting_.stale_mutation_rejections` -/
def countStale (r : Registry) : Registry :=
  { r with accounting := { r.accounting with
      stale_mutation_rejections := r.accounting.stale_mutation_rejections + 1 } }

/-- One round of the loop of `rebuild_indexes`. -/
def indexInstance (r : Registry) (inst : ServiceInstance) : Registry :=
  { r with
    index_by_service := Index.add r.index_by_service inst.service_id inst.instance_id
    index_by_boot := Index.add r.index_by_boot inst.boot inst.instance_id
    index_by_node := Index.add r.index_by_node inst.node inst.instance_id
    index_by_kind := match r.services[inst.service_id]? with
      | some svc => Index.add r.index_by_kind svc.kind inst.service_id
      | none => r.index_by_kind }

def rebuild_indexes (r : Registry) : Registry :=
  (r.instances.toList.map (·.2)).foldl indexInstance
    { r with index_by_kind := ∅, index_by_service := ∅, index_by_boot := ∅, index_by_node := ∅ }

/-- A newly constructed registry. -/
def fresh : Registry :=
  rebuild_indexes { authority := { epoch := ⟨1⟩, registry_generation := ⟨1⟩, record_generation := ⟨1⟩ }
                    next_boot := 100, next_id := 1 }

/-- What `rebuild_indexes` writes: the indexes and nothing else. -/
theorem rebuild_indexes_writes (r : Registry) : ∃ a b c d, r.rebuild_indexes =
    { r with index_by_kind := a, index_by_service := b, index_by_boot := c, index_by_node := d } := by
  unfold rebuild_indexes
  generalize hl : r.instances.toList.map (·.2) = l
  clear hl
  suffices h : ∀ s : Registry, (∃ a b c d, s =
      { r with index_by_kind := a, index_by_service := b, index_by_boot := c, index_by_node := d }) →
      ∃ a b c d, l.foldl indexInstance s =
      { r with index_by_kind := a, index_by_service := b, index_by_boot := c, index_by_node := d } from
    h _ ⟨_, _, _, _, rfl⟩
  induction l with
  | nil => exact fun s hs => hs
  | cons inst l ih =>
    rintro s ⟨a, b, c, d, rfl⟩
    exact ih _ ⟨_, _, _, _, rfl⟩

end Registry

end RuntimeRegistry
