import RuntimeRegistry.Enums
import RuntimeRegistry.Version
/-!
# Provenance and capabilities

A capability carries a typed value, whose structured shape nests. A `double` is
its 64-bit pattern: the registry only copies, persists and compares it, and the
comparison is the IEEE one, by which NaN differs from itself and `-0` equals `0`.
-/
open Lib

namespace RuntimeRegistry

/-! ## Provenance -/

structure Provenance where
  kind : Enum EvidenceKind := EvidenceKind.UNKNOWN
  source : Text := []
  timestamp_ms : Int64 := 0
  digest : Text := []
deriving DecidableEq

def Provenance.is_physical (p : Provenance) : Bool :=
  p.kind = EvidenceKind.MEASURED || p.kind = EvidenceKind.REPORTED || p.kind = EvidenceKind.DERIVED

/-! ## Doubles -/

/-- A `double`, by its bits. -/
structure F64 where
  bits : UInt64 := 0
deriving DecidableEq

namespace F64

/-- The exponent is all ones and the fraction is not zero. -/
def isNaN (d : F64) : Bool := d.bits <<< 1 > 0xFFE0000000000000

def isZero (d : F64) : Bool := d.bits <<< 1 = 0

/-- `operator==` of two doubles. -/
def eq (a b : F64) : Bool := !a.isNaN && !b.isNaN && (a.bits = b.bits || (a.isZero && b.isZero))

end F64

/-! ## Capability values -/

/-- A typed capability value; `kind` says which shape is active. -/
structure CapabilityValue where
  kind : Enum CapabilityValueKind := CapabilityValueKind.UNKNOWN
  boolean : Bool := false
  integer : Int64 := 0
  real : F64 := {}
  string : Text := []
  has_min : Bool := false
  has_max : Bool := false
  range_min : F64 := {}
  range_max : F64 := {}
  structured : List (Text × CapabilityValue) := []

namespace CapabilityValue

mutual
/-- `operator==`: only the active shape is compared, and a kind that is no
enumerator makes a value differ from everything. -/
def eq : CapabilityValue → CapabilityValue → Bool
  | ⟨kind, boolean, integer, real, string, has_min, has_max, range_min, range_max, structured⟩, b =>
    kind = b.kind &&
    match kind with
    | .named .BOOLEAN => boolean = b.boolean
    | .named .INTEGER => integer = b.integer
    | .named .REAL => real.eq b.real
    | .named .RANGE =>
      has_min = b.has_min && has_max = b.has_max && range_min.eq b.range_min && range_max.eq b.range_max
    | .named .STRING => string = b.string
    | .named .STRUCTURED => eqs structured b.structured
    | .named .UNKNOWN => true
    | .unnamed _ _ => false

/-- `operator==` of the key and value lists. -/
def eqs : List (Text × CapabilityValue) → List (Text × CapabilityValue) → Bool
  | [], [] => true
  | (k, v) :: xs, (k', v') :: ys => k = k' && eq v v' && eqs xs ys
  | _, _ => false
end

instance : BEq CapabilityValue := ⟨eq⟩

end CapabilityValue

structure CapabilityDescriptor where
  capability_id : CapabilityId := {}
  kind : Enum CapabilityKind := CapabilityKind.UNKNOWN
  generation : CapabilityGeneration := {}
  version : SemanticVersion := {}
  value : CapabilityValue := {}
  attributes : List Text := []
  constraints : List Text := []
  provenance : Provenance := {}
  freshness : Enum Freshness := Freshness.UNKNOWN
  authority_generation : AuthorityGeneration := {}

instance : BEq CapabilityDescriptor where
  beq a b :=
    a.capability_id = b.capability_id && a.kind = b.kind && a.generation = b.generation && a.version == b.version &&
    a.value == b.value && a.attributes = b.attributes && a.constraints = b.constraints &&
    a.provenance = b.provenance && a.freshness = b.freshness && a.authority_generation = b.authority_generation

end RuntimeRegistry
