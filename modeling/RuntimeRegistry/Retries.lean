import RuntimeRegistry.Claiming
import RuntimeRegistry.Duplicates
import RuntimeRegistry.Generations
import RuntimeRegistry.Precedence
/-!
# Retried registrations

A client that lost the answer sends its registration again. The repeat is told by
comparing the record with the stored one, so a record that differs from itself (a NaN
among its numbers) is refused the second time, and so is an instance whose health,
reachability or lifecycle the registry has written on the way in.
-/
open Lib

namespace RuntimeRegistry

/-! ## Values that equal themselves -/

theorem F64.eq_self_iff (d : F64) : d.eq d = true ↔ d.isNaN = false := by simp [F64.eq]

theorem F64.eq_left {a b : F64} (h : a.eq b = true) : a.eq a = true := by
  rw [eq_self_iff]
  simp only [F64.eq, Bool.and_eq_true, Bool.not_eq_true'] at h
  exact h.1.1

namespace CapabilityValue

mutual
/-- The value has a named kind, and no number of its shape is NaN. -/
def Comparable : CapabilityValue → Prop
  | ⟨kind, _, _, real, _, _, _, range_min, range_max, structured⟩ =>
    match kind with
    | .named .REAL => real.isNaN = false
    | .named .RANGE => range_min.isNaN = false ∧ range_max.isNaN = false
    | .named .STRUCTURED => Comparables structured
    | .named _ => True
    | .unnamed _ _ => False

def Comparables : List (Text × CapabilityValue) → Prop
  | [] => True
  | (_, v) :: xs => Comparable v ∧ Comparables xs
end

mutual
theorem eq_self_iff : ∀ v : CapabilityValue, v.eq v = true ↔ v.Comparable
  | ⟨kind, _, _, _, _, _, _, _, _, structured⟩ => by
    cases kind with
    | unnamed b h => simp [eq, Comparable]
    | named k =>
      cases k
      case REAL => simp [eq, Comparable, F64.eq_self_iff]
      case RANGE => simp [eq, Comparable, F64.eq_self_iff]
      case STRUCTURED => simpa [eq, Comparable] using eqs_self_iff structured
      all_goals simp [eq, Comparable]

theorem eqs_self_iff : ∀ xs : List (Text × CapabilityValue), eqs xs xs = true ↔ Comparables xs
  | [] => by simp [eqs, Comparables]
  | (_, v) :: xs => by simp [eqs, Comparables, eq_self_iff v, eqs_self_iff xs]
end

mutual
/-- What equals another value equals itself. -/
theorem eq_left : ∀ v w : CapabilityValue, v.eq w = true → v.eq v = true
  | ⟨kind, _, _, _, _, _, _, _, _, structured⟩, w => by
    intro h
    cases kind with
    | unnamed b h' => simp [eq] at h
    | named k =>
      cases k
      case REAL =>
        simp only [eq, Bool.and_eq_true] at h ⊢
        exact ⟨by simp, F64.eq_left h.2⟩
      case RANGE =>
        simp only [eq, Bool.and_eq_true] at h ⊢
        exact ⟨by simp, ⟨by simp, F64.eq_left h.2.1.2⟩, F64.eq_left h.2.2⟩
      case STRUCTURED =>
        simp only [eq, Bool.and_eq_true] at h ⊢
        exact ⟨by simp, eqs_left structured w.structured h.2⟩
      all_goals simp [eq]

theorem eqs_left : ∀ xs ys : List (Text × CapabilityValue), eqs xs ys = true → eqs xs xs = true
  | [], _, _ => by simp [eqs]
  | (_, v) :: xs, [], h => by simp [eqs] at h
  | (_, v) :: xs, (_, w) :: ys, h => by
    simp only [eqs, Bool.and_eq_true] at h ⊢
    exact ⟨⟨by simp, eq_left v w h.1.2⟩, eqs_left xs ys h.2⟩
end

end CapabilityValue

/-! ## Records that equal themselves -/

theorem SemanticVersion.beq_self (v : SemanticVersion) : (v == v) = true := by
  show decide (v.compare v = 0) = true
  rw [compare_key, threeWay_self]
  rfl

/-- The call registers something under an id that it brings. -/
def Op.RegistersNamed : Op → Prop
  | .register_instance inst _ => inst.instance_id.value ≠ 0
  | op => op.class = .descriptor ∧ op.NamesDescriptor

namespace Registry

variable {r s t : Registry} {env : AuthorityEnvelope} {scan : List ServiceInstanceId} {inst : ServiceInstance}

theorem services_same_self (svc : ServiceDescriptor) : services_.same svc svc = true :=
  Bool.and_eq_true_iff.2 ⟨decide_eq_true rfl, svc.version.beq_self⟩

theorem runtimes_same_self (rt : RuntimeDescriptor) : runtimes_.same rt rt = true :=
  Bool.and_eq_true_iff.2 ⟨decide_eq_true rfl, rt.version.beq_self⟩

theorem backends_same_self (bd : BackendDescriptor) : backends_.same bd bd = true :=
  Bool.and_eq_true_iff.2 ⟨decide_eq_true rfl, bd.version.beq_self⟩

/-- A capability equals itself if its value does. -/
theorem capabilities_same_self_iff (cap : CapabilityDescriptor) :
    capabilities_.same cap cap = true ↔ cap.value.Comparable := by
  rw [← CapabilityValue.eq_self_iff]
  have hversion := cap.version.beq_self
  simp only [capabilities_, BEq.beq, Bool.and_eq_true, decide_eq_true_eq] at hversion ⊢
  tauto

theorem capabilities_same_left {cap current : CapabilityDescriptor} (h : capabilities_.same cap current = true) :
    capabilities_.same cap cap = true := by
  rw [capabilities_same_self_iff, ← CapabilityValue.eq_self_iff]
  simp only [capabilities_, BEq.beq, Bool.and_eq_true, decide_eq_true_eq] at h
  exact CapabilityValue.eq_left _ current.value (by tauto)

/-! ## Descriptors -/

theorem protocols_lawful : protocols_.Lawful where
  table_replace _ _ _ := rfl
  table_insert _ _ := rfl
  table_commit _ _ := rfl
  table_next _ _ := rfl
  table_accounting _ _ := rfl
  id_withId _ h := nomatch h

theorem nodes_lawful : nodes_.Lawful where
  table_replace _ _ _ := rfl
  table_insert _ _ := rfl
  table_commit _ _ := rfl
  table_next _ _ := rfl
  table_accounting _ _ := rfl
  id_withId _ h := nomatch h

theorem backends_lawful : backends_.Lawful where
  table_replace _ _ _ := rfl
  table_insert _ _ := rfl
  table_commit _ _ := rfl
  table_next _ _ := rfl
  table_accounting _ _ := rfl
  id_withId := by rintro _ ⟨⟩ _ _; rfl

theorem devices_lawful : devices_.Lawful where
  table_replace _ _ _ := rfl
  table_insert _ _ := rfl
  table_commit _ _ := rfl
  table_next _ _ := rfl
  table_accounting _ _ := rfl
  id_withId := by rintro _ ⟨⟩ _ _; rfl

section
variable {tag : IdTag} {gen : GenTag} {ρ : Type}

/-- The repeat of a registration that returned is confirmed or thrown back, by whether
the record equals itself. -/
theorem registerRecord_retry {D : Domain tag gen ρ} (hD : D.Lawful) {x : ρ} (hnamed : D.assign x r = (x, r))
    (hleft : ∀ current, D.same x current → D.same x x) (haccepts : (registerRecord D r x env).2.Accepts env)
    (hreturns : (registerRecord D r x env).Returns) :
    (D.same x x → registerRecord D (registerRecord D r x env).2 x env = registerRecord D r x env) ∧
      (¬ D.same x x → ∃ e u, registerRecord D (registerRecord D r x env).2 x env = (.error e, u)) := by
  have hstored : ∀ u : Registry, u.Accepts env → (D.table u)[D.id x]? = some x →
      (D.same x x → registerRecord D u x env = (.ok (D.id x), u)) ∧
        (¬ D.same x x → ∃ e v, registerRecord D u x env = (.error e, v)) := by
    intro u hu hx
    rw [registerRecord_stored D hu hx rfl]
    exact ⟨fun h => if_pos h, fun h => ⟨_, _, if_neg h⟩⟩
  revert haccepts hreturns
  apply registerRecord_rule D (P := fun o => o.2.Accepts env → o.Returns →
    (D.same x x → registerRecord D o.2 x env = o) ∧ (¬ D.same x x → ∃ e u, registerRecord D o.2 x env = (.error e, u)))
  case rejected => exact fun e _ _ hreturns => absurd hreturns (Outcome.not_returns_error e _)
  case stale => exact fun _ _ _ _ _ hreturns => absurd hreturns (Outcome.not_returns_error _ _)
  case fenced => exact fun _ _ _ _ _ hreturns => absurd hreturns (Outcome.not_returns_error _ _)
  case repeated =>
    intro ha current hold hgen hsame _ _
    refine ⟨fun _ => ?_, fun hnot => absurd (hleft current hsame) hnot⟩
    rw [registerRecord_stored D ha hold hgen, if_pos hsame]
  case replaced =>
    intro _ current _ _ haccepts _
    refine hstored _ haccepts ?_
    rw [hD.table_commit, hD.table_replace, Std.ExtTreeMap.getElem?_insert_self]
  case inserted =>
    intro _ _ _ haccepts _
    rw [hnamed] at haccepts ⊢
    refine hstored _ haccepts ?_
    rw [hD.table_commit, hD.table_insert, Std.ExtTreeMap.getElem?_insert_self]

theorem registerRecord_repeat {D : Domain tag gen ρ} (hD : D.Lawful) {x : ρ} (hnamed : D.assign x r = (x, r))
    (hself : D.same x x = true) (haccepts : (registerRecord D r x env).2.Accepts env)
    (hreturns : (registerRecord D r x env).Returns) :
    registerRecord D (registerRecord D r x env).2 x env = registerRecord D r x env :=
  (registerRecord_retry hD hnamed (fun _ _ => hself) haccepts hreturns).1 hself

end

/-! ## Repeated calls -/

/-- The repeat of the call gives the same answer and changes nothing. A table of instances
that the call has left alone is walked as before. -/
def RetrySafe (r : Registry) (scan : List ServiceInstanceId) (op : Op) : Prop :=
  ∀ scan', scan'.Perm (r.exec scan op).2.instances.keys → ((r.exec scan op).2 = r → scan' = scan) →
    (r.exec scan op).2.exec scan' op = r.exec scan op

/-- The record that the registration stores is the one it brings: a capability differs in
nothing from itself, and an instance is classified as it says, or is a repeat already. -/
def Retriable (r : Registry) (scan : List ServiceInstanceId) : Op → Prop
  | .register_capability cap _ => cap.value.Comparable
  | .register_instance inst _ =>
    r.Repeats scan inst ∨ (r.claimed inst.instance_id inst.endpoints).reclassify_lifecycle inst = inst
  | _ => True

theorem retried_iff {α β : Type} {o o' : Outcome α} {f : α → β} {P : Prop} (h : P → o' = o)
    (h' : ¬ P → ∃ e u, o' = (.error e, u)) (hreturns : (o.map f).Returns) : o'.map f = o.map f ↔ P := by
  refine ⟨fun heq => ?_, fun hP => by rw [h hP]⟩
  by_contra hP
  obtain ⟨e, u, he⟩ := h' hP
  rw [← heq, he] at hreturns
  exact Outcome.not_returns_error e u hreturns

/-- A call that ends no incarnation and loads no image accepts what it accepted. -/
theorem exec_accepts {op : Op} (hincarnation : op.class ≠ .incarnation) (himage : op.class ≠ .image) :
    (r.exec scan op).2.Accepts env ↔ r.Accepts env := by
  have h := (r.exec_incarnations scan op hincarnation himage).1
  rw [Accepts, Accepts, RegistryAuthority.is_boot_live, RegistryAuthority.is_boot_live, h.epoch, h.live_boots]

/-- A call that returns has had its envelope accepted. -/
theorem accepts_of_returns {op : Op} (henv : op.envelope = some env) (hreturns : (r.exec scan op).Returns) :
    r.Accepts env := by
  by_contra hnot
  obtain ⟨e, he⟩ := exec_rejected henv hnot scan
  rw [he] at hreturns
  exact Outcome.not_returns_error e r hreturns

theorem descriptor_retry {op : Op} (hc : op.class = .descriptor) (hnames : op.NamesDescriptor)
    (hreturns : (r.exec scan op).Returns) (scan' : List ServiceInstanceId) :
    (r.exec scan op).2.exec scan' op = r.exec scan op ↔ r.Retriable scan op := by
  have haccepts : ∀ env, op.envelope = some env → (r.exec scan op).2.Accepts env := fun env henv =>
    (exec_accepts (by rw [hc]; decide) (by rw [hc]; decide)).2 (accepts_of_returns henv hreturns)
  cases op <;> simp only [Op.class, reduceCtorEq] at hc
  case register_service svc env =>
    have hacc := haccepts env rfl
    simp only [exec, Outcome.map_snd, Outcome.map_returns, register_service, Outcome.void_snd, Outcome.void_returns] at hacc hreturns ⊢
    have h := registerRecord_repeat services_lawful (Domain.assign_named (.inl rfl)) (services_same_self svc) hacc hreturns
    exact iff_of_true (by rw [h]) trivial
  case register_protocol pd env =>
    have hacc := haccepts env rfl
    simp only [exec, Outcome.map_snd, Outcome.map_returns, register_protocol, Outcome.void_snd, Outcome.void_returns] at hacc hreturns ⊢
    have h := registerRecord_repeat protocols_lawful (Domain.assign_named (.inl rfl)) (decide_eq_true rfl) hacc hreturns
    exact iff_of_true (by rw [h]) trivial
  case register_node nd env =>
    have hacc := haccepts env rfl
    simp only [exec, Outcome.map_snd, Outcome.map_returns, register_node, Outcome.void_snd, Outcome.void_returns] at hacc hreturns ⊢
    have h := registerRecord_repeat nodes_lawful (Domain.assign_named (.inl rfl)) (decide_eq_true rfl) hacc hreturns
    exact iff_of_true (by rw [h]) trivial
  case register_runtime rt env =>
    have h := registerRecord_repeat runtimes_lawful (Domain.assign_named (D := runtimes_) (.inr hnames)) (runtimes_same_self rt) (haccepts env rfl)
      ((Outcome.map_returns _ _).1 hreturns)
    exact iff_of_true (congrArg (Outcome.map _) h) trivial
  case register_endpoint ep env =>
    have h := registerRecord_repeat endpoints_lawful (Domain.assign_named (D := endpoints_) (.inr hnames)) (decide_eq_true rfl) (haccepts env rfl)
      ((Outcome.map_returns _ _).1 hreturns)
    exact iff_of_true (congrArg (Outcome.map _) h) trivial
  case register_backend bd env =>
    have h := registerRecord_repeat backends_lawful (Domain.assign_named (D := backends_) (.inr hnames)) (backends_same_self bd) (haccepts env rfl)
      ((Outcome.map_returns _ _).1 hreturns)
    exact iff_of_true (congrArg (Outcome.map _) h) trivial
  case register_device dd env =>
    have h := registerRecord_repeat devices_lawful (Domain.assign_named (D := devices_) (.inr hnames)) (decide_eq_true rfl) (haccepts env rfl)
      ((Outcome.map_returns _ _).1 hreturns)
    exact iff_of_true (congrArg (Outcome.map _) h) trivial
  case register_capability cap env =>
    obtain ⟨h, h'⟩ := registerRecord_retry capabilities_lawful (Domain.assign_named (D := capabilities_) (.inr hnames))
      (fun _ => capabilities_same_left) (haccepts env rfl) ((Outcome.map_returns _ _).1 hreturns)
    exact (retried_iff h h' hreturns).trans (capabilities_same_self_iff cap)

/-! ## Instances -/

theorem assignedId_named (h : inst.instance_id.value ≠ 0) (r : Registry) : r.assignedId inst = inst.instance_id := if_neg h

theorem assignedNext_named (h : inst.instance_id.value ≠ 0) (r : Registry) : r.assignedNext inst = r.next_id := if_neg h

/-- A registration of the generation of the current instance is a repeat or is refused. -/
theorem register_instance_met {id : ServiceInstanceId} {current : ServiceInstance} (ha : r.Accepts env)
    (hservice : inst.service_id ∈ r.services) (hnamed : inst.instance_id.value ≠ 0)
    (hc : r.currentInstance scan inst.service_id = some (id, current))
    (hgen : inst.instance_generation = current.instance_generation) :
    ((inst == current) = true → r.register_instance scan inst env = (.ok inst.instance_id, r)) ∧
      (¬ (inst == current) = true → ∃ e u, r.register_instance scan inst env = (.error e, u)) := by
  have hid := assignedId_named hnamed r
  have hcopy : { inst with instance_id := r.assignedId inst } = inst := by rw [hid]
  apply register_instance_rule (P := fun o => ((inst == current) = true → o = (.ok inst.instance_id, r)) ∧
    (¬ (inst == current) = true → ∃ e u, o = (.error e, u)))
  case rejected => exact fun _ hnot => absurd ha hnot
  case unregistered => exact fun _ hnot => absurd hservice hnot
  case fenced => exact fun _ _ hnone => nomatch hc.symm.trans hnone
  case first => exact fun _ _ hnone => nomatch hc.symm.trans hnone
  case repeated =>
    intro _ _ id' current' hc' _ heq
    obtain ⟨rfl, rfl⟩ := Prod.mk.inj (Option.some.inj (hc.symm.trans hc'))
    rw [hcopy] at heq
    rw [hid, assignedNext_named hnamed]
    exact ⟨fun _ => rfl, fun hnot => absurd heq hnot⟩
  case stale =>
    intro _ _ id' current' hc' _ hnot e
    obtain ⟨rfl, rfl⟩ := Prod.mk.inj (Option.some.inj (hc.symm.trans hc'))
    rw [hcopy] at hnot
    exact ⟨fun heq => absurd ⟨hgen, heq⟩ hnot, fun _ => ⟨e, _, rfl⟩⟩
  case superseded =>
    intro _ _ id' current' hc' hlt
    obtain ⟨rfl, rfl⟩ := Prod.mk.inj (Option.some.inj (hc.symm.trans hc'))
    exact absurd hlt hgen.not_gt

/-- A current instance above all others of its service is found by every walk. -/
theorem currentInstance_unique {service : ServiceId} {id : ServiceInstanceId} {x : ServiceInstance}
    (hscan : scan.Perm r.instances.keys) (hc : r.IsCurrent service id x)
    (habove : ∀ k y, r.IsCurrent service k y → k ≠ id → y.instance_generation < x.instance_generation) :
    r.currentInstance scan service = some (id, x) := by
  rcases hfound : r.currentInstance scan service with _ | ⟨k, y⟩
  · exact absurd hc (currentInstance_none hscan hfound id x)
  · have hy := currentInstance_some hfound
    by_cases hk : k = id
    · subst hk
      rw [Option.some.inj (hy.1.symm.trans hc.1)]
    · exact absurd (currentInstance_max hscan hfound hc) (habove k y hy hk).not_ge

/-- The record that an admissible registration stores. -/
def storedInstance (r : Registry) (inst : ServiceInstance) : ServiceInstance :=
  (r.claimed inst.instance_id inst.endpoints).reclassify_lifecycle inst

theorem admitted_instances (hnamed : inst.instance_id.value ≠ 0) (ha : r.Accepts env) (hadm : r.Admissible scan inst)
    (k : ServiceInstanceId) : (r.register_instance scan inst env).2.instances[k]? =
      if inst.instance_id = k then some (r.storedInstance inst) else (r.superseding scan inst).instances[k]? := by
  rw [register_instance_admitted ha hadm, assignedId_named hnamed, storeInstance_instances,
    ((r.superseding_evidence scan inst).claimed _ _).reclassify]
  rfl

/-- The stored instance is the current one of its service, whatever the walk. -/
theorem admitted_current (hscan : scan.Perm r.instances.keys) (hnamed : inst.instance_id.value ≠ 0) (ha : r.Accepts env)
    (hadm : r.Admissible scan inst) {scan' : List ServiceInstanceId}
    (hscan' : scan'.Perm (r.register_instance scan inst env).2.instances.keys) :
    (r.register_instance scan inst env).2.currentInstance scan' inst.service_id =
      some (inst.instance_id, r.storedInstance inst) := by
  have hinstances := admitted_instances hnamed ha hadm
  refine currentInstance_unique hscan' ⟨(hinstances _).trans (if_pos rfl), rfl, historical_reclassify _ _⟩ fun k y hy hk => ?_
  have hold := (hinstances k).symm.trans hy.1
  rw [if_neg (Ne.symm hk)] at hold
  obtain ⟨_, hadm⟩ := hadm
  unfold superseding at hold
  rcases hc : r.currentInstance scan inst.service_id with _ | ⟨id, current⟩
  · rw [hc] at hold
    exact absurd ⟨hold, hy.2⟩ (currentInstance_none hscan hc k y)
  · rw [hc] at hold hadm
    -- the one that was current is in history now, and the others are not above it
    rcases getElem?_insert_cases r.instances id k { current with lifecycle := Lifecycle.SUPERSEDED } with
      ⟨_, hsup⟩ | ⟨_, hkept⟩
    · obtain rfl := Option.some.inj (hsup.symm.trans hold)
      exact absurd hy.2.2 (by simp [historical])
    · exact (currentInstance_max hscan hc ⟨hkept.symm.trans hold, hy.2⟩).trans_lt hadm.1

theorem instance_same_iff (r : Registry) (inst : ServiceInstance) :
    (inst == r.storedInstance inst) = true ↔ r.storedInstance inst = inst := by
  have hversion : (inst.version == (r.storedInstance inst).version) = true := inst.version.beq_self
  rw [show (inst == r.storedInstance inst) =
    (decide ({ inst with version := (r.storedInstance inst).version } = r.storedInstance inst) &&
      (inst.version == (r.storedInstance inst).version)) from rfl, hversion, Bool.and_true, decide_eq_true_eq]
  exact eq_comm

theorem register_instance_repeats (hnamed : inst.instance_id.value ≠ 0) (ha : r.Accepts env) (h : r.Repeats scan inst) :
    r.register_instance scan inst env = (.ok inst.instance_id, r) := by
  obtain ⟨hservice, id, current, hc, hgen, heq⟩ := h
  rw [assignedId_named hnamed] at heq
  exact (register_instance_met ha hservice hnamed hc hgen).1 heq

/-- The repeat of a registration that stored the instance. -/
theorem register_instance_retry (hscan : scan.Perm r.instances.keys) (hnamed : inst.instance_id.value ≠ 0)
    (ha : r.Accepts env) (hadm : r.Admissible scan inst) (scan' : List ServiceInstanceId)
    (hscan' : scan'.Perm (r.register_instance scan inst env).2.instances.keys) :
    (r.storedInstance inst = inst →
        (r.register_instance scan inst env).2.register_instance scan' inst env = r.register_instance scan inst env) ∧
      (r.storedInstance inst ≠ inst →
        ∃ e u, (r.register_instance scan inst env).2.register_instance scan' inst env = (.error e, u)) := by
  have hreturned : r.register_instance scan inst env = (.ok inst.instance_id, (r.register_instance scan inst env).2) := by
    rw [register_instance_admitted ha hadm, assignedId_named hnamed]
  have haccepts : (r.exec scan (.register_instance inst env)).2.Accepts env := by
    refine (exec_accepts ?_ ?_).2 ha
    · exact nofun
    · exact nofun
  have hservice : inst.service_id ∈ (r.register_instance scan inst env).2.services := by
    rw [(register_instance_evidence ha hadm).services]
    exact hadm.1
  have hmet := register_instance_met haccepts hservice hnamed (admitted_current hscan hnamed ha hadm hscan') rfl
  rw [instance_same_iff] at hmet
  exact ⟨fun h => (hmet.1 h).trans hreturned.symm, hmet.2⟩

/-! ## Every registration -/

/-- A registration that returned can be repeated exactly if the record that it stores is
the one it brings. -/
theorem retry_safe_iff {op : Op} (hop : op.RegistersNamed) (hscan : scan.Perm r.instances.keys)
    (hreturns : (r.exec scan op).Returns) : r.RetrySafe scan op ↔ r.Retriable scan op := by
  have hdescriptor : op.class = .descriptor → op.NamesDescriptor → (r.RetrySafe scan op ↔ r.Retriable scan op) := by
    intro hc hnames
    have himage : op.class ≠ .image := by rw [hc]; decide
    have hkept : (r.exec scan op).2.instances = r.instances :=
      (r.exec_frame scan himage).instances (by rw [hc]; decide) (by rw [hc]; decide)
    have hretry := descriptor_retry hc hnames hreturns
    exact ⟨fun h => (hretry scan).1 (h scan (by rwa [hkept]) fun _ => rfl), fun h scan' _ _ => (hretry scan').2 h⟩
  cases op
  case register_instance inst env =>
    have ha : r.Accepts env := accepts_of_returns rfl hreturns
    rcases (register_instance_returns_iff.1 ((Outcome.map_returns _ _).1 hreturns)).2 with hrepeats | hadm
    · refine iff_of_true (fun scan' _ hwalk => ?_) (.inl hrepeats)
      have hsame : r.exec scan (.register_instance inst env) = (.ok (.id inst.instance_id.value), r) := by
        rw [exec, register_instance_repeats hop ha hrepeats]
        rfl
      rw [hsame] at hwalk ⊢
      rw [hwalk rfl, hsame]
    · have hretriable : r.Retriable scan (.register_instance inst env) ↔ r.storedInstance inst = inst :=
        or_iff_right fun hrepeats => hrepeats.not_admissible hadm
      have hretry := register_instance_retry hscan hop ha hadm
      rw [hretriable]
      constructor
      · intro h
        by_cases hsame : (r.exec scan (.register_instance inst env)).2 = r
        · have hperm : scan.Perm (r.exec scan (.register_instance inst env)).2.instances.keys := by rwa [hsame]
          exact (retried_iff (hretry scan hperm).1 (hretry scan hperm).2 hreturns).1 (h scan hperm fun _ => rfl)
        · have hperm := List.Perm.refl (r.exec scan (.register_instance inst env)).2.instances.keys
          exact (retried_iff (hretry _ hperm).1 (hretry _ hperm).2 hreturns).1 (h _ hperm fun heq => absurd heq hsame)
      · intro h scan' hperm _
        exact (retried_iff (hretry scan' hperm).1 (hretry scan' hperm).2 hreturns).2 h
  all_goals exact hdescriptor hop.1 hop.2

/-- An instance that says how it is classified can be registered twice. -/
theorem retry_safe_classified :
    (fresh.after [.adopt_worker ⟨1⟩, .register_service Sample.service Sample.env]).RetrySafe []
      (.register_instance { Sample.incarnation 5 1 with lifecycle := Lifecycle.AVAILABLE } Sample.env) := by
  have hop : (Op.register_instance { Sample.incarnation 5 1 with lifecycle := Lifecycle.AVAILABLE } Sample.env).RegistersNamed :=
    show (5 : UInt64) ≠ 0 by decide
  refine (retry_safe_iff hop ?_ (exists_ok (by decide +kernel))).2 (.inr (by decide +kernel))
  rw [show (fresh.after [.adopt_worker ⟨1⟩, .register_service Sample.service Sample.env]).instances.keys = [] by decide +kernel]

/-- The sample's instance is refused when its registration is repeated. -/
theorem retry_refused :
    let r := fresh.after [.adopt_worker ⟨1⟩, .register_service Sample.service Sample.env]
    let op := Op.register_instance (Sample.incarnation 5 1) Sample.env
    let o := r.exec r.instances.keys op
    r.Reachable ∧ o.Returns ∧ ∃ e, (o.2.exec o.2.instances.keys op).1 = .error e := by
  intro r op o
  refine ⟨Reachable.after (.refl _) _, exists_ok (by decide +kernel), ?_⟩
  have hthrow : (o.2.exec o.2.instances.keys op).1.isOk = false := by decide +kernel
  rcases hagain : (o.2.exec o.2.instances.keys op).1 with e | _
  · exact ⟨e, rfl⟩
  · rw [hagain] at hthrow
    cases hthrow

end Registry

end RuntimeRegistry
