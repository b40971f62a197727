import RuntimeRegistry.Authority
/-!
# Registration of descriptors

`register_service` and its seven siblings are one procedure over different maps:
an exact repeat is confirmed, a generation that is not newer is refused, a newer
one replaces, and a new key is inserted unless a tombstone fences it. `Domain`
is what they differ in.
-/
open Lib

namespace RuntimeRegistry

namespace Registry

/-! ## Tombstone coverage -/

def covers (tomb : TombstoneRecord) (target_kind target_text : Text) (gen_floor : UInt64) : Bool :=
  tomb.target_kind = target_kind && tomb.target_text = target_text && gen_floor ≤ tomb.generation_floor.value

def covered_by_tombstone (r : Registry) (target_kind target_text : Text) (gen_floor : UInt64) : Bool :=
  r.tombstones.toList.any fun kv => covers kv.2 target_kind target_text gen_floor

/-! ## The procedure -/

/-- The tombstones that fence a new record: their target kind, and the message of
the refusal. -/
structure Fence where
  target_kind : Text
  message : Text

/-- What one `register_*` does with its own map, records `ρ` by id. -/
structure Domain (tag : IdTag) (gen : GenTag) (ρ : Type) where
  id : ρ → Id tag
  generation : ρ → Gen gen
  /-- `operator==` of the records -/
  same : ρ → ρ → Bool
  table : Registry → Map tag ρ
  /-- the refusal of `x` because the stored `current` is as new -/
  stale (x current : ρ) : RegistryError
  fence : Option Fence
  /-- gives the record the id, where id 0 asks for a fresh one -/
  withId : Option (Id tag → ρ → ρ)
  /-- `it->second = x` and what goes with it -/
  replace (current x : ρ) (r : Registry) : Registry
  /-- `map[id] = x` and what goes with it -/
  insert (x : ρ) (r : Registry) : Registry
  /-- the generation counter of the domain follows the newest generation -/
  raise (g : Gen gen) (a : RegistryAuthority) : RegistryAuthority
  /-- what is left to do after the commit -/
  finish : Registry → Registry

variable {tag : IdTag} {gen : GenTag} {ρ : Type}

/-- A record with id 0 takes the next id, where the domain assigns ids. -/
def Domain.assign (D : Domain tag gen ρ) (x : ρ) (r : Registry) : ρ × Registry :=
  match D.withId with
  | some withId =>
    if (D.id x).value = 0 then (withId ⟨r.next_id⟩ x, { r with next_id := r.next_id + 1 }) else (x, r)
  | none => (x, r)

/-- The lines after the two branches. -/
def Domain.commit (D : Domain tag gen ρ) (x : ρ) (r : Registry) : Outcome (Id tag) :=
  (.ok (D.id x), D.finish { r with authority := D.raise (D.generation x) r.authority }.commit_registry_generation)

/-- A tombstone of the domain's kind covers the record. -/
def Domain.fenced (D : Domain tag gen ρ) (x : ρ) (r : Registry) : Option Fence :=
  D.fence.filter fun f => r.covered_by_tombstone f.target_kind (to_string (D.id x).value) (D.generation x).value

def registerRecord (D : Domain tag gen ρ) (r : Registry) (x : ρ) (env : AuthorityEnvelope) : Outcome (Id tag) :=
  authorized r env <|
  match (D.table r)[D.id x]? with
  | some current =>
    if D.generation x = D.generation current && D.same x current then (.ok (D.id x), r)
    else if D.generation x ≤ D.generation current then (.error (D.stale x current), r.countDuplicate)
    else D.commit x (D.replace current x r)
  | none =>
    match D.fenced x r with
    | some f => (.error ⟨.TOMBSTONE_RESURRECTION, f.message⟩, r.countStale)
    | none =>
      let (copy, r) := D.assign x r
      D.commit copy (D.insert copy r)

/-! ## The domains -/

/-- `if (counter < g) counter = g;` -/
def raiseTo (counter g : Gen gen) : Gen gen := if counter < g then g else counter

def services_ : Domain .ServiceId .ServiceGeneration ServiceDescriptor where
  id := (·.service_id)
  generation := (·.generation)
  same := (· == ·)
  table := (·.services)
  stale x current := ⟨.STALE_SERVICE_GENERATION,
    text "registration rejected because ServiceGeneration " ++ to_string x.generation.value ++
      text " is stale; current " ++ to_string current.generation.value⟩
  fence := some ⟨text "ServiceId", text "registration rejected because ServiceId is covered by a tombstone"⟩
  withId := none
  replace _ x r := { r with services := r.services.insert x.service_id x }
  insert x r :=
    { r with
      services := r.services.insert x.service_id x
      accounting := { r.accounting with services := r.accounting.services + 1 } }
  raise g a := { a with service_gen := raiseTo a.service_gen g }
  finish := rebuild_indexes

/-- A replacement is stored under the runtime instance only, not under the runtime. -/
def runtimes_ : Domain .RuntimeInstanceId .RuntimeGeneration RuntimeDescriptor where
  id := (·.runtime_instance)
  generation := (·.generation)
  same := (· == ·)
  table := (·.runtime_instances)
  stale x _ := ⟨.STALE_RUNTIME_GENERATION, text "stale RuntimeGeneration " ++ to_string x.generation.value⟩
  fence := some ⟨text "RuntimeInstanceId", text "runtime instance resurrected by tombstone"⟩
  withId := some fun id x => { x with runtime_instance := id }
  replace _ x r := { r with runtime_instances := r.runtime_instances.insert x.runtime_instance x }
  insert x r :=
    { r with
      runtimes := r.runtimes.insert x.runtime_id x
      runtime_instances := r.runtime_instances.insert x.runtime_instance x
      runtime_history := r.runtime_history ++ [x]
      accounting := { r.accounting with
        runtimes := r.accounting.runtimes + 1, runtime_instances := r.accounting.runtime_instances + 1 } }
  raise g a := { a with runtime_gen := raiseTo a.runtime_gen g }
  finish := id

def protocols_ : Domain .ProtocolId .ProtocolGeneration ProtocolDescriptor where
  id := (·.protocol_id)
  generation := (·.generation)
  same := (· = ·)
  table := (·.protocols)
  stale _ _ := ⟨.DUPLICATE_CONFLICT, text "stale or duplicate ProtocolId registration"⟩
  fence := none
  withId := none
  replace _ x r := { r with protocols := r.protocols.insert x.protocol_id x }
  insert x r :=
    { r with
      protocols := r.protocols.insert x.protocol_id x
      accounting := { r.accounting with protocols := r.accounting.protocols + 1 } }
  raise g a := { a with protocol_gen := raiseTo a.protocol_gen g }
  finish := id

def endpoints_ : Domain .EndpointId .EndpointGeneration EndpointDescriptor where
  id := (·.endpoint_id)
  generation := (·.generation)
  same := (· = ·)
  table := (·.endpoints)
  stale x _ := ⟨.STALE_ENDPOINT_GENERATION, text "stale EndpointGeneration " ++ to_string x.generation.value⟩
  fence := some ⟨text "EndpointId", text "endpoint resurrected by tombstone"⟩
  withId := some fun id x => { x with endpoint_id := id }
  replace current x r :=
    { r with
      endpoint_history := r.endpoint_history ++ [current]
      endpoints := r.endpoints.insert x.endpoint_id x
      accounting := { r.accounting with supersessions := r.accounting.supersessions + 1 } }
  insert x r :=
    { r with
      endpoints := r.endpoints.insert x.endpoint_id x
      endpoint_history := r.endpoint_history ++ [x]
      accounting := { r.accounting with endpoints := r.accounting.endpoints + 1 } }
  raise g a := { a with endpoint_gen := raiseTo a.endpoint_gen g }
  finish := id

def capabilities_ : Domain .CapabilityId .CapabilityGeneration CapabilityDescriptor where
  id := (·.capability_id)
  generation := (·.generation)
  same := (· == ·)
  table := (·.capabilities)
  stale x _ := ⟨.STALE_CAPABILITY_GENERATION, text "stale CapabilityGeneration " ++ to_string x.generation.value⟩
  fence := some ⟨text "CapabilityId", text "capability resurrected by tombstone"⟩
  withId := some fun id x => { x with capability_id := id }
  replace current x r :=
    { r with
      capability_history := r.capability_history ++ [current]
      capabilities := r.capabilities.insert x.capability_id x
      accounting := { r.accounting with supersessions := r.accounting.supersessions + 1 } }
  insert x r :=
    { r with
      capabilities := r.capabilities.insert x.capability_id x
      capability_history := r.capability_history ++ [x]
      accounting := { r.accounting with capabilities := r.accounting.capabilities + 1 } }
  raise g a := { a with capability_gen := raiseTo a.capability_gen g }
  finish := id

def backends_ : Domain .BackendId .BackendGeneration BackendDescriptor where
  id := (·.backend_id)
  generation := (·.generation)
  same := (· == ·)
  table := (·.backends)
  stale _ _ := ⟨.STALE_EPOCH, text "stale BackendGeneration"⟩
  fence := none
  withId := some fun id x => { x with backend_id := id }
  replace _ x r := { r with backends := r.backends.insert x.backend_id x }
  insert x r :=
    { r with
      backends := r.backends.insert x.backend_id x
      accounting := { r.accounting with backends := r.accounting.backends + 1 } }
  raise g a := { a with backend_gen := raiseTo a.backend_gen g }
  finish := id

def devices_ : Domain .DeviceId .DeviceGeneration DeviceDescriptor where
  id := (·.device_id)
  generation := (·.generation)
  same := (· = ·)
  table := (·.devices)
  stale _ _ := ⟨.STALE_EPOCH, text "stale DeviceGeneration"⟩
  fence := none
  withId := some fun id x => { x with device_id := id }
  replace _ x r := { r with devices := r.devices.insert x.device_id x }
  insert x r :=
    { r with
      devices := r.devices.insert x.device_id x
      accounting := { r.accounting with devices := r.accounting.devices + 1 } }
  raise g a := { a with device_gen := raiseTo a.device_gen g }
  finish := id

def nodes_ : Domain .NodeId .NodeGeneration NodeDescriptor where
  id := (·.node_id)
  generation := (·.generation)
  same := (· = ·)
  table := (·.nodes)
  stale _ _ := ⟨.STALE_EPOCH, text "stale NodeGeneration"⟩
  fence := none
  withId := none
  replace _ x r := { r with nodes := r.nodes.insert x.node_id x }
  insert x r :=
    { r with
      nodes := r.nodes.insert x.node_id x
      accounting := { r.accounting with nodes := r.accounting.nodes + 1 } }
  raise g a := { a with node_gen := raiseTo a.node_gen g }
  finish := id

/-! ## The eight registrations -/

def register_service (r : Registry) (svc : ServiceDescriptor) (env : AuthorityEnvelope) : Outcome Unit :=
  (registerRecord services_ r svc env).void

def register_runtime (r : Registry) (rt : RuntimeDescriptor) (env : AuthorityEnvelope) : Outcome RuntimeInstanceId :=
  registerRecord runtimes_ r rt env

def register_protocol (r : Registry) (pd : ProtocolDescriptor) (env : AuthorityEnvelope) : Outcome Unit :=
  (registerRecord protocols_ r pd env).void

def register_endpoint (r : Registry) (ep : EndpointDescriptor) (env : AuthorityEnvelope) : Outcome EndpointId :=
  registerRecord endpoints_ r ep env

def register_capability (r : Registry) (cap : CapabilityDescriptor) (env : AuthorityEnvelope) : Outcome CapabilityId :=
  registerRecord capabilities_ r cap env

def register_backend (r : Registry) (bd : BackendDescriptor) (env : AuthorityEnvelope) : Outcome BackendId :=
  registerRecord backends_ r bd env

def register_device (r : Registry) (dd : DeviceDescriptor) (env : AuthorityEnvelope) : Outcome DeviceId :=
  registerRecord devices_ r dd env

def register_node (r : Registry) (nd : NodeDescriptor) (env : AuthorityEnvelope) : Outcome Unit :=
  (registerRecord nodes_ r nd env).void

end Registry

end RuntimeRegistry
