import RuntimeRegistry.Records
/-!
# The bounds of the decoder

A text of more than 2^24 bytes, or a list longer than its field allows, is written
to an image but not read back. What fits is told here record by record, texts and
lists apart, and every record that the decoder accepts fits.
-/
open Lib Lib.Reader

namespace RuntimeRegistry

/-! ## Parts of records -/

def Text.Fits (s : Text) : Prop := s.length ≤ 0x1000000

def SemanticVersion.TextsFit (v : SemanticVersion) : Prop := Text.Fits v.prerelease ∧ Text.Fits v.build

def Provenance.TextsFit (p : Provenance) : Prop := Text.Fits p.source ∧ Text.Fits p.digest

mutual
def CapabilityValue.TextsFit : CapabilityValue → Prop
  | ⟨_, _, _, _, string, _, _, _, _, structured⟩ => Text.Fits string ∧ EntriesTextsFit structured

/-- The keys and the values of a structured value fit. -/
def EntriesTextsFit : List (Text × CapabilityValue) → Prop
  | [] => True
  | (k, v) :: entries => Text.Fits k ∧ v.TextsFit ∧ EntriesTextsFit entries
end

mutual
/-- At every depth a structured value has at most 4096 entries. -/
def CapabilityValue.ListsFit : CapabilityValue → Prop
  | ⟨_, _, _, _, _, _, _, _, _, structured⟩ => structured.length ≤ 4096 ∧ EntriesListsFit structured

def EntriesListsFit : List (Text × CapabilityValue) → Prop
  | [] => True
  | (_, v) :: entries => v.ListsFit ∧ EntriesListsFit entries
end

/-! ## Records -/

def ServiceDescriptor.TextsFit (s : ServiceDescriptor) : Prop :=
  Text.Fits s.name ∧ s.version.TextsFit ∧ s.provenance.TextsFit ∧ Text.Fits s.semantic_digest

def ServiceDescriptor.ListsFit (s : ServiceDescriptor) : Prop :=
  s.required_capabilities.length ≤ 256 ∧ s.optional_capabilities.length ≤ 256 ∧ s.protocol_requirements.length ≤ 256

def ServiceInstance.TextsFit (i : ServiceInstance) : Prop :=
  i.version.TextsFit ∧ i.provenance.TextsFit ∧ Text.Fits i.semantic_digest

def ServiceInstance.ListsFit (i : ServiceInstance) : Prop :=
  i.endpoints.length ≤ 4096 ∧ i.protocols.length ≤ 4096 ∧ i.capabilities.length ≤ 4096

def RuntimeDescriptor.TextsFit (rt : RuntimeDescriptor) : Prop :=
  Text.Fits rt.name ∧ Text.Fits rt.family ∧ rt.version.TextsFit ∧ Text.Fits rt.build_identity ∧
    Text.Fits rt.compiler_identity ∧ Text.Fits rt.architecture ∧ Text.Fits rt.device_constraint ∧
    rt.provenance.TextsFit

def RuntimeDescriptor.ListsFit (rt : RuntimeDescriptor) : Prop :=
  rt.supported_protocols.length ≤ 4096 ∧ rt.capabilities.length ≤ 4096 ∧ rt.backends.length ≤ 4096

def EndpointDescriptor.TextsFit (e : EndpointDescriptor) : Prop := Text.Fits e.locator ∧ e.provenance.TextsFit

def ProtocolDescriptor.TextsFit (p : ProtocolDescriptor) : Prop :=
  Text.Fits p.name ∧ Text.Fits p.framing ∧ p.provenance.TextsFit

def ProtocolDescriptor.ListsFit (p : ProtocolDescriptor) : Prop := p.required_capabilities.length ≤ 256

def BackendDescriptor.TextsFit (bd : BackendDescriptor) : Prop := bd.version.TextsFit ∧ bd.provenance.TextsFit

def BackendDescriptor.ListsFit (bd : BackendDescriptor) : Prop := bd.capabilities.length ≤ 4096

def DeviceDescriptor.TextsFit (d : DeviceDescriptor) : Prop :=
  Text.Fits d.name ∧ Text.Fits d.vendor ∧ Text.Fits d.architecture ∧ Text.Fits d.compute_capability ∧
    Text.Fits d.backend_binding ∧ d.provenance.TextsFit

def CapabilityDescriptor.TextsFit (c : CapabilityDescriptor) : Prop :=
  c.version.TextsFit ∧ c.value.TextsFit ∧ (∀ s ∈ c.attributes, Text.Fits s) ∧ (∀ s ∈ c.constraints, Text.Fits s) ∧
    c.provenance.TextsFit

def CapabilityDescriptor.ListsFit (c : CapabilityDescriptor) : Prop :=
  c.value.ListsFit ∧ c.attributes.length ≤ 256 ∧ c.constraints.length ≤ 256

def NodeDescriptor.TextsFit (n : NodeDescriptor) : Prop := Text.Fits n.hostname ∧ n.provenance.TextsFit

def NodeDescriptor.ListsFit (n : NodeDescriptor) : Prop :=
  n.runtimes.length ≤ 4096 ∧ n.service_instances.length ≤ 4096 ∧ n.devices.length ≤ 4096 ∧ n.backends.length ≤ 4096

def LeaseDescriptor.TextsFit (l : LeaseDescriptor) : Prop := l.provenance.TextsFit

def TombstoneRecord.TextsFit (t : TombstoneRecord) : Prop :=
  Text.Fits t.target_kind ∧ Text.Fits t.target_text ∧ Text.Fits t.reason ∧ t.provenance.TextsFit

def InvalidationRecord.TextsFit (iv : InvalidationRecord) : Prop :=
  Text.Fits iv.target_kind ∧ Text.Fits iv.target_text ∧ Text.Fits iv.reason ∧ iv.provenance.TextsFit

def CompatibilityRecord.TextsFit (c : CompatibilityRecord) : Prop := c.provenance.TextsFit

/-! ## Registries -/

/-- Every stored text fits. -/
def textsFit : RecordCondition where
  service _ x := x.TextsFit
  inst _ x := x.TextsFit
  runtime _ x := x.TextsFit
  runtimeInstance _ x := x.TextsFit
  endpoint _ x := x.TextsFit
  protocol _ x := x.TextsFit
  backend _ x := x.TextsFit
  device _ x := x.TextsFit
  capability _ x := x.TextsFit
  node _ x := x.TextsFit
  lease _ x := x.TextsFit
  tombstone _ x := x.TextsFit
  compat _ x := x.TextsFit
  invalidation x := x.TextsFit

/-- Every stored list fits its field. -/
def listsFit : RecordCondition where
  service _ x := x.ListsFit
  inst _ x := x.ListsFit
  runtime _ x := x.ListsFit
  runtimeInstance _ x := x.ListsFit
  endpoint _ _ := True
  protocol _ x := x.ListsFit
  backend _ x := x.ListsFit
  device _ _ := True
  capability _ x := x.ListsFit
  node _ x := x.ListsFit
  lease _ _ := True
  tombstone _ _ := True
  compat _ _ := True
  invalidation _ := True

/-- Every stored service has one of the named kinds. -/
def kindsNamed : RecordCondition where
  service _ x := x.kind.Named
  inst _ _ := True
  runtime _ _ := True
  runtimeInstance _ _ := True
  endpoint _ _ := True
  protocol _ _ := True
  backend _ _ := True
  device _ _ := True
  capability _ _ := True
  node _ _ := True
  lease _ _ := True
  tombstone _ _ := True
  compat _ _ := True
  invalidation _ := True

theorem textsFit_stable : textsFit.Stable := by
  constructor <;> intros <;> assumption

theorem listsFit_stable : listsFit.Stable := by
  constructor <;> intros <;> assumption

theorem kindsNamed_stable : kindsNamed.Stable := by
  constructor <;> intros <;> assumption

/-- No map or vector is longer than a count of an image may say. -/
structure Registry.SizesFit (r : Registry) : Prop where
  services : r.services.size ≤ 10000000
  instances : r.instances.size ≤ 10000000
  runtimes : r.runtimes.size ≤ 10000000
  runtime_instances : r.runtime_instances.size ≤ 10000000
  endpoints : r.endpoints.size ≤ 10000000
  protocols : r.protocols.size ≤ 10000000
  backends : r.backends.size ≤ 10000000
  devices : r.devices.size ≤ 10000000
  capabilities : r.capabilities.size ≤ 10000000
  nodes : r.nodes.size ≤ 10000000
  leases : r.leases.size ≤ 10000000
  tombstones : r.tombstones.size ≤ 10000000
  compat_records : r.compat_records.size ≤ 10000000
  invalidations : r.invalidations.length ≤ 10000000
  instance_history : r.instance_history.length ≤ 10000000
  runtime_history : r.runtime_history.length ≤ 10000000
  endpoint_history : r.endpoint_history.length ≤ 10000000
  capability_history : r.capability_history.length ≤ 10000000

end RuntimeRegistry
