import Mathlib
/-!
# Identities and generations

`Id` and `Gen` are 64-bit values under a tag, so the domains never mix. Ids
are ordered by value, which is the order of every sorted listing; generations
are compared explicitly. Zero is the default of both, and the id that asks the
registry for a fresh one.
-/

namespace RuntimeRegistry

/-- `std::string`: a sequence of bytes. -/
abbrev Text := List UInt8

/-- The bytes of an ASCII literal. -/
def text (s : String) : Text := s.toList.map fun c => UInt8.ofNat c.toNat

/-- `std::to_string`, and `<<` on an output stream, of an unsigned value. -/
def to_string (v : UInt64) : Text := (Nat.toDigits 10 v.toNat).map fun c => UInt8.ofNat c.toNat

inductive IdTag
  | ServiceId | ServiceInstanceId | RuntimeId | RuntimeInstanceId | NodeId | WorkerId | WorkerBootId | ProcessId
  | EndpointId | ProtocolId | BackendId | DeviceId | CapabilityId | CompatibilityId | LeaseId | TombstoneId | OwnerId
deriving DecidableEq

inductive GenTag
  | CoordinatorEpoch | RegistryGeneration | RecordGeneration | ServiceGeneration | ServiceInstanceGeneration
  | RuntimeGeneration | RuntimeInstanceGeneration | NodeGeneration | EndpointGeneration | ProtocolGeneration
  | BackendGeneration | DeviceGeneration | CapabilityGeneration | CompatibilityGeneration | LeaseGeneration
  | ObservationGeneration | AttemptGeneration | DispatchGeneration | PolicyGeneration | AuthorityGeneration
  | TrustGeneration
deriving DecidableEq

/-- Opaque, ordered, strongly-typed integer-backed identity. -/
structure Id (tag : IdTag) where
  value : UInt64 := 0
deriving DecidableEq

/-- Monotonic, ordered, strongly-typed generation. -/
structure Gen (tag : GenTag) where
  value : UInt64 := 0
deriving DecidableEq

abbrev ServiceId := Id .ServiceId
abbrev ServiceInstanceId := Id .ServiceInstanceId
abbrev RuntimeId := Id .RuntimeId
abbrev RuntimeInstanceId := Id .RuntimeInstanceId
abbrev NodeId := Id .NodeId
abbrev WorkerId := Id .WorkerId
abbrev WorkerBootId := Id .WorkerBootId
abbrev ProcessId := Id .ProcessId
abbrev EndpointId := Id .EndpointId
abbrev ProtocolId := Id .ProtocolId
abbrev BackendId := Id .BackendId
abbrev DeviceId := Id .DeviceId
abbrev CapabilityId := Id .CapabilityId
abbrev CompatibilityId := Id .CompatibilityId
abbrev LeaseId := Id .LeaseId
abbrev TombstoneId := Id .TombstoneId
abbrev OwnerId := Id .OwnerId

abbrev CoordinatorEpoch := Gen .CoordinatorEpoch
abbrev RegistryGeneration := Gen .RegistryGeneration
abbrev RecordGeneration := Gen .RecordGeneration
abbrev ServiceGeneration := Gen .ServiceGeneration
abbrev ServiceInstanceGeneration := Gen .ServiceInstanceGeneration
abbrev RuntimeGeneration := Gen .RuntimeGeneration
abbrev RuntimeInstanceGeneration := Gen .RuntimeInstanceGeneration
abbrev NodeGeneration := Gen .NodeGeneration
abbrev EndpointGeneration := Gen .EndpointGeneration
abbrev ProtocolGeneration := Gen .ProtocolGeneration
abbrev BackendGeneration := Gen .BackendGeneration
abbrev DeviceGeneration := Gen .DeviceGeneration
abbrev CapabilityGeneration := Gen .CapabilityGeneration
abbrev CompatibilityGeneration := Gen .CompatibilityGeneration
abbrev LeaseGeneration := Gen .LeaseGeneration
abbrev ObservationGeneration := Gen .ObservationGeneration
abbrev AttemptGeneration := Gen .AttemptGeneration
abbrev DispatchGeneration := Gen .DispatchGeneration
abbrev PolicyGeneration := Gen .PolicyGeneration
abbrev AuthorityGeneration := Gen .AuthorityGeneration
abbrev TrustGeneration := Gen .TrustGeneration

namespace Id
variable {tag : IdTag}

instance : Inhabited (Id tag) := ⟨{}⟩

instance : Ord (Id tag) := ⟨fun a b => compare a.value b.value⟩

instance : Std.TransOrd (Id tag) where
  eq_swap {a b} := @Std.OrientedCmp.eq_swap UInt64 compare _ a.value b.value
  isLE_trans {a b c} := @Std.TransCmp.isLE_trans UInt64 compare _ a.value b.value c.value

theorem value_inj {a b : Id tag} : a.value = b.value ↔ a = b := by
  cases a; cases b; simp

instance : Std.LawfulEqOrd (Id tag) where
  eq_of_compare h := value_inj.1 (Std.LawfulEqOrd.eq_of_compare (α := UInt64) h)

end Id

namespace Gen
variable {tag : GenTag}

theorem value_inj {a b : Gen tag} : a.value = b.value ↔ a = b := by
  cases a; cases b; simp

theorem toNat_injective : Function.Injective fun g : Gen tag => g.value.toNat :=
  fun _ _ h => value_inj.1 (UInt64.toNat_inj.1 h)

instance : LinearOrder (Gen tag) := LinearOrder.lift' (fun g => g.value.toNat) toNat_injective

theorem le_def {a b : Gen tag} : a ≤ b ↔ a.value ≤ b.value := Iff.rfl

/-- The generation after `g`, modulo 2^64. -/
def succ (g : Gen tag) : Gen tag := ⟨g.value + 1⟩

end Gen

/-- `std::unordered_map`, as the finite map it stands for. Where a result could
depend on the order the hash table is walked in, the order is a parameter. -/
abbrev Map (tag : IdTag) (α : Type) := Std.ExtTreeMap (Id tag) α

end RuntimeRegistry
