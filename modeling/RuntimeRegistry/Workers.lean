import RuntimeRegistry.Replies
/-!
# Workers

A worker process greets the coordinator and then sends the lines of its script, each
one after the answer to the line before. The numbers in a line are printed by the
worker and read by the coordinator, and what is read are the records that the worker
means.
-/
open Lib

namespace RuntimeRegistry

/-! ## The script -/

/-- The arguments of a worker: its id, and the text of the generation with the number it
stands for. -/
structure Worker where
  workerId : ℕ
  gen : Text
  generation : UInt64
  id_pos : 0 < workerId
  /-- no overflow in `41000 + workerId` -/
  port_fits : 41000 + workerId < 2 ^ 31
  gen_reads : stoull gen = .ok generation
  gen_plain : ','.toUInt8 ∉ gen

/-- `std::to_string` of a number that is not negative. -/
def num (n : ℕ) : Text := to_string (UInt64.ofNat n)

namespace Worker

def id (w : Worker) : UInt64 := UInt64.ofNat w.workerId

def serviceId (w : Worker) : UInt64 := UInt64.ofNat (100 + w.workerId)

def port (w : Worker) : ℕ := 41000 + w.workerId

/-- The lines that the worker sends in mode "hold". -/
def script (w : Worker) : List Text := [
  text "HELLO," ++ num w.workerId,
  text "REG_RT," ++ num w.workerId ++ text "," ++ num w.workerId ++ text ",1,native,cpp,x64",
  text "REG_SV," ++ num (100 + w.workerId) ++ text ",1,MODEL_SERVER,svc,CUDA",
  text "REG_EP," ++ num w.workerId ++ text "," ++ w.gen ++ text "," ++ num (41000 + w.workerId),
  text "REG_CA," ++ num w.workerId ++ text ",CUDA_AVAILABLE",
  text "REG_IN," ++ num (100 + w.workerId) ++ text "," ++ w.gen ++ text ",1," ++ num w.workerId ++ text "," ++
    num w.workerId ++ text "," ++ num w.workerId ++ text "," ++ num w.workerId]

/-! ## What the lines say -/

def runtimeOf (n : UInt64) : RuntimeDescriptor where
  runtime_id := ⟨n⟩
  runtime_instance := ⟨n⟩
  generation := ⟨1⟩
  kind := RuntimeKind.NATIVE_CPP
  name := text "native"
  family := text "cpp"
  version := version_1
  api_version := { major := 1 }
  abi_version := { major := 1 }
  architecture := text "x64"

def serviceOf (n : UInt64) : ServiceDescriptor where
  service_id := ⟨n⟩
  generation := ⟨1⟩
  kind := ServiceKind.MODEL_SERVER
  name := text "svc"
  version := version_1
  api_version := { major := 1 }
  abi_version := { major := 1 }
  required_capabilities := [CapabilityKind.CUDA_AVAILABLE]

def capabilityOf (n : UInt64) : CapabilityDescriptor where
  capability_id := ⟨n⟩
  kind := CapabilityKind.CUDA_AVAILABLE
  generation := ⟨1⟩
  version := version_1
  value := { kind := CapabilityValueKind.BOOLEAN, boolean := true }
  freshness := Freshness.CURRENT
  provenance := make_provenance .MEASURED (text "dev") 0

def endpoint (w : Worker) : EndpointDescriptor where
  endpoint_id := ⟨w.id⟩
  generation := ⟨w.generation⟩
  protocol := ⟨1⟩
  locator := text "127.0.0.1:" ++ num w.port
  transport := TransportKind.TCP
  port := (Int32.ofInt w.port).toUInt32.toUInt16
  health := Health.HEALTHY
  reachability := Reachability.REACHABLE
  freshness := Freshness.CURRENT
  provenance := make_provenance .MEASURED (text "probe") 0

def inst (w : Worker) : ServiceInstance where
  service_id := ⟨w.serviceId⟩
  service_generation := ⟨1⟩
  instance_generation := ⟨w.generation⟩
  node := ⟨1⟩
  runtime_id := ⟨w.id⟩
  runtime_instance := ⟨w.id⟩
  endpoints := [⟨w.id⟩]
  capabilities := [⟨w.id⟩]
  health := Health.HEALTHY
  readiness := Readiness.READY
  freshness := Freshness.CURRENT
  reachability := Reachability.REACHABLE
  version := version_1
  provenance := make_provenance .REPORTED (text "worker") 0
  lifecycle := Lifecycle.REGISTERING

/-- The records are equal to themselves, also by the operators that compare versions and values. -/
theorem beq_self (n : UInt64) : (runtimeOf n == runtimeOf n) = true ∧ (serviceOf n == serviceOf n) = true ∧
    (capabilityOf n == capabilityOf n) = true := by
  have hversion : (version_1 == version_1) = true := by decide
  refine ⟨?_, ?_, ?_⟩
  · show (decide (runtimeOf n = runtimeOf n) && (version_1 == version_1)) = true
    simp [hversion]
  · show (decide (serviceOf n = serviceOf n) && (version_1 == version_1)) = true
    simp [hversion]
  · simp only [BEq.beq, capabilityOf, decide_true, Bool.true_and, Bool.and_true, Bool.and_eq_true]
    exact ⟨hversion, rfl⟩

/-- The messages of the script. -/
def messages (w : Worker) : List Message :=
  [.HELLO ⟨w.id⟩, .REG_RT (runtimeOf w.id), .REG_SV (serviceOf w.serviceId), .REG_EP w.endpoint,
    .REG_CA (capabilityOf w.id), .REG_IN w.inst]

/-! ## How they are read -/

/-- Fields with a comma between them. -/
def line : List Text → Text
  | [] => []
  | [a] => a
  | a :: as => a ++ ','.toUInt8 :: line as

theorem split_line {fields : List Text} (hne : fields ≠ []) (h : ∀ a ∈ fields, ','.toUInt8 ∉ a) :
    split (line fields) ','.toUInt8 = fields := by
  induction fields with
  | nil => exact absurd rfl hne
  | cons a as ih =>
    rw [List.forall_mem_cons] at h
    cases as with
    | nil => exact split_of_notMem h.1
    | cons b bs =>
      have hline : line (a :: b :: bs) = a ++ ','.toUInt8 :: line (b :: bs) := rfl
      rw [hline, split_append_cons h.1, ih (by simp) h.2]

theorem num_comma (n : ℕ) : ','.toUInt8 ∉ num n := by
  intro h
  exact absurd (Numeral.isDigit_write _ _ h) (by decide)

theorem stoull_num (n : ℕ) : stoull (num n) = .ok (UInt64.ofNat n) := stoull_to_string _

theorem stoi_num {n : ℕ} (h : n < 2 ^ 31) : stoi (num n) = .ok (Int32.ofInt n) := by
  have hn : (UInt64.ofNat n).toNat = n := by
    rw [UInt64.toNat_ofNat']
    omega
  have hread : Numeral.read (num n) = some ⟨false, n⟩ := by
    show Numeral.read (Numeral.write (UInt64.ofNat n).toNat) = _
    rw [hn, Numeral.read_write]
  rw [stoi, hread]
  dsimp only
  rw [if_pos (by simp; omega)]
  rfl

/-- The fields of the lines. -/
def fields (w : Worker) : List (List Text) := [
  [text "HELLO", num w.workerId],
  [text "REG_RT", num w.workerId, num w.workerId, text "1", text "native", text "cpp", text "x64"],
  [text "REG_SV", num (100 + w.workerId), text "1", text "MODEL_SERVER", text "svc", text "CUDA"],
  [text "REG_EP", num w.workerId, w.gen, num (41000 + w.workerId)],
  [text "REG_CA", num w.workerId, text "CUDA_AVAILABLE"],
  [text "REG_IN", num (100 + w.workerId), w.gen, text "1", num w.workerId, num w.workerId, num w.workerId, num w.workerId]]

theorem script_eq (w : Worker) : w.script = w.fields.map line := by
  simp only [script, fields, List.map, line, List.append_assoc]
  rfl

/-- No field of a line holds a comma. -/
theorem fields_comma (w : Worker) : ∀ fs ∈ w.fields, fs ≠ [] ∧ ∀ a ∈ fs, ','.toUInt8 ∉ a := by
  have hnum := num_comma
  have hgen := w.gen_plain
  have hliteral : ∀ t ∈ [text "HELLO", text "REG_RT", text "1", text "native", text "cpp", text "x64", text "REG_SV",
      text "MODEL_SERVER", text "svc", text "CUDA", text "REG_EP", text "REG_CA", text "CUDA_AVAILABLE", text "REG_IN"],
      ','.toUInt8 ∉ t := by decide
  simp only [List.forall_mem_cons] at hliteral
  simp only [fields, List.forall_mem_cons, ne_eq, reduceCtorEq, not_false_eq_true, true_and]
  simp [hnum, hgen, hliteral]

theorem request_hello (n : ℕ) (has_worker : Bool) :
    request has_worker [text "HELLO", num n] = .ok (.message (.HELLO ⟨UInt64.ofNat n⟩)) := by
  show (stoull (num n) >>= fun v => pure (Request.message (.HELLO ⟨v⟩))) = _
  rw [stoull_num]
  rfl

theorem request_runtime (n : ℕ) : request true [text "REG_RT", num n, num n, text "1", text "native", text "cpp", text "x64"] =
    .ok (.message (.REG_RT (runtimeOf (UInt64.ofNat n)))) := by
  show (do
    let runtime_id ← stoull (num n)
    let runtime_instance ← stoull (num n)
    return Request.message (.REG_RT { runtimeOf (UInt64.ofNat n) with
      runtime_id := ⟨runtime_id⟩, runtime_instance := ⟨runtime_instance⟩ })) = _
  rw [stoull_num]
  rfl

theorem request_service (n : ℕ) :
    request true [text "REG_SV", num n, text "1", text "MODEL_SERVER", text "svc", text "CUDA"] =
      .ok (.message (.REG_SV (serviceOf (UInt64.ofNat n)))) := by
  show (do
    let service_id ← stoull (num n)
    return Request.message (.REG_SV { serviceOf (UInt64.ofNat n) with service_id := ⟨service_id⟩ })) = _
  rw [stoull_num]
  rfl

theorem request_endpoint (w : Worker) :
    request true [text "REG_EP", num w.workerId, w.gen, num (41000 + w.workerId)] = .ok (.message (.REG_EP w.endpoint)) := by
  show (do
    let endpoint_id ← stoull (num w.workerId)
    let generation ← stoull w.gen
    let port ← stoi (num (41000 + w.workerId))
    return Request.message (.REG_EP { w.endpoint with
      endpoint_id := ⟨endpoint_id⟩, generation := ⟨generation⟩, port := port.toUInt32.toUInt16 })) = _
  rw [stoull_num, w.gen_reads, stoi_num w.port_fits]
  rfl

theorem request_capability (n : ℕ) : request true [text "REG_CA", num n, text "CUDA_AVAILABLE"] =
    .ok (.message (.REG_CA (capabilityOf (UInt64.ofNat n)))) := by
  show (do
    let capability_id ← stoull (num n)
    return Request.message (.REG_CA { capabilityOf (UInt64.ofNat n) with capability_id := ⟨capability_id⟩ })) = _
  rw [stoull_num]
  rfl

theorem request_instance (w : Worker) :
    request true [text "REG_IN", num (100 + w.workerId), w.gen, text "1", num w.workerId, num w.workerId, num w.workerId,
      num w.workerId] = .ok (.message (.REG_IN w.inst)) := by
  show (do
    let service_id ← stoull (num (100 + w.workerId))
    let instance_generation ← stoull w.gen
    let runtime_id ← stoull (num w.workerId)
    let runtime_instance ← stoull (num w.workerId)
    let endpoint ← stoull (num w.workerId)
    let capability ← stoull (num w.workerId)
    return Request.message (.REG_IN { w.inst with
      service_id := ⟨service_id⟩, instance_generation := ⟨instance_generation⟩, runtime_id := ⟨runtime_id⟩
      runtime_instance := ⟨runtime_instance⟩, endpoints := [⟨endpoint⟩], capabilities := [⟨capability⟩] })) = _
  rw [stoull_num, stoull_num, w.gen_reads]
  rfl

/-- Every line of the script is read as its message: the greeting always, the others once
the session has a worker. -/
theorem request_script (w : Worker) {k : ℕ} {t : Text} (ht : w.script[k]? = some t) {has_worker : Bool}
    (hw : k ≠ 0 → has_worker = true) :
    ∃ m, w.messages[k]? = some m ∧ request has_worker (split t ','.toUInt8) = .ok (.message m) := by
  rw [script_eq, List.getElem?_map, Option.map_eq_some_iff] at ht
  obtain ⟨fs, hfs, rfl⟩ := ht
  obtain ⟨hne, hfree⟩ := w.fields_comma fs (List.mem_of_getElem? hfs)
  rw [split_line hne hfree]
  match k with
  | 0 =>
    cases hfs
    exact ⟨_, rfl, request_hello w.workerId has_worker⟩
  | 1 =>
    cases hfs
    rw [hw (by decide)]
    exact ⟨_, rfl, request_runtime w.workerId⟩
  | 2 =>
    cases hfs
    rw [hw (by decide)]
    exact ⟨_, rfl, request_service _⟩
  | 3 =>
    cases hfs
    rw [hw (by decide)]
    exact ⟨_, rfl, w.request_endpoint⟩
  | 4 =>
    cases hfs
    rw [hw (by decide)]
    exact ⟨_, rfl, request_capability _⟩
  | 5 =>
    cases hfs
    rw [hw (by decide)]
    exact ⟨_, rfl, w.request_instance⟩
  | k + 6 => cases hfs

end Worker

end RuntimeRegistry
