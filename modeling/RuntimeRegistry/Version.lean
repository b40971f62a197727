import RuntimeRegistry.Identity
/-!
# Versions

`SemanticVersion` is `major.minor.patch` with prerelease and build texts,
compared by the semver rules the code implements: `operator==` is
`compare = 0`, so it ignores the build text. `StructuredVersion` is the
three-number version of the API, ABI and protocol contracts.
-/

namespace RuntimeRegistry

structure SemanticVersion where
  major : Int64 := 0
  minor : Int64 := 0
  patch : Int64 := 0
  prerelease : Text := []
  build : Text := []
deriving DecidableEq

/-- The identifiers of a prerelease text: the pieces between its dots. -/
def dotIdentifiers : Text → List Text
  | [] => [[]]
  | c :: s =>
    if c = '.'.toUInt8 then [] :: dotIdentifiers s
    else match dotIdentifiers s with
      | [] => [[c]]
      | id :: ids => (c :: id) :: ids

def isDigit (c : UInt8) : Bool := '0'.toUInt8 ≤ c && c ≤ '9'.toUInt8

/-- `for (char c : A) an = an * 10 + (c - '0')`, in 64 bits. -/
def identifierNumber (a : Text) : Int64 :=
  a.foldl (fun an c => an * 10 + (c - '0'.toUInt8).toUInt64.toInt64) 0

/-- `std::string_view::compare`, by sign. -/
def compareText : Text → Text → Int
  | [], [] => 0
  | [], _ :: _ => -1
  | _ :: _, [] => 1
  | a :: as, b :: bs => if a < b then -1 else if b < a then 1 else compareText as bs

/-- The loop of `SemanticVersion::compare` over the identifiers that are left on
each side, one of each a round. -/
def compareIdentifiers : List Text → List Text → Int
  | [], [] => 0
  | [], _ :: _ => -1
  | _ :: _, [] => 1
  | a :: as, b :: bs =>
    if a = [] ∧ b = [] then 0
    else if a = [] then -1
    else if b = [] then 1
    else
      let aNum := a.all isDigit
      let bNum := b.all isDigit
      let c : Int :=
        if aNum && bNum then
          if identifierNumber a = identifierNumber b then 0
          else if identifierNumber a < identifierNumber b then -1 else 1
        else if aNum != bNum then (if aNum then -1 else 1)
        else compareText a b
      if c = 0 then compareIdentifiers as bs else c

namespace SemanticVersion

def compare (a b : SemanticVersion) : Int :=
  if a.major ≠ b.major then (if a.major < b.major then -1 else 1)
  else if a.minor ≠ b.minor then (if a.minor < b.minor then -1 else 1)
  else if a.patch ≠ b.patch then (if a.patch < b.patch then -1 else 1)
  else if a.prerelease = [] ∧ b.prerelease = [] then 0
  else if b.prerelease = [] then -1
  else if a.prerelease = [] then 1
  else compareIdentifiers (dotIdentifiers a.prerelease) (dotIdentifiers b.prerelease)

/-- `operator==` -/
instance : BEq SemanticVersion := ⟨fun a b => a.compare b = 0⟩

end SemanticVersion

inductive VersionTag
  | ApiTag | AbiTag | ProtocolTag
deriving DecidableEq

structure StructuredVersion (tag : VersionTag) where
  major : Int64 := 0
  minor : Int64 := 0
  patch : Int64 := 0
deriving DecidableEq

abbrev ApiVersion := StructuredVersion .ApiTag
abbrev AbiVersion := StructuredVersion .AbiTag
abbrev ProtocolVersion := StructuredVersion .ProtocolTag

namespace StructuredVersion
variable {tag : VersionTag}

def compare (a b : StructuredVersion tag) : Int :=
  if a.major ≠ b.major then (if a.major < b.major then -1 else 1)
  else if a.minor ≠ b.minor then (if a.minor < b.minor then -1 else 1)
  else if a.patch ≠ b.patch then (if a.patch < b.patch then -1 else 1)
  else 0

end StructuredVersion

end RuntimeRegistry
