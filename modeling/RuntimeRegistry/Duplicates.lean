import RuntimeRegistry.Refusals
/-!
# Conflicting duplicates

A registration under a stored key and generation is a repeat or a conflict, and
`operator==` tells which. It skips the build text of a version, and of a capability
value the shapes that are not active, so some conflicts pass for repeats and are
dropped without a word.
-/
open Lib

namespace RuntimeRegistry

namespace Registry

variable {r : Registry} {env : AuthorityEnvelope}

/-! ## Conflicts -/

section
variable {tag : IdTag} {gen : GenTag} {ρ : Type}

/-- Another record is stored under the same key with the same generation. -/
def Domain.Conflicts (D : Domain tag gen ρ) (r : Registry) (x : ρ) : Prop :=
  ∃ current, (D.table r)[D.id x]? = some current ∧ D.generation x = D.generation current ∧ x ≠ current

/-- `operator==` takes the other record for the same. -/
def Domain.Blurs (D : Domain tag gen ρ) (r : Registry) (x : ρ) : Prop :=
  ∃ current, (D.table r)[D.id x]? = some current ∧ D.generation x = D.generation current ∧ x ≠ current ∧ D.same x current

/-- The call throws and leaves all but the counts of refusals. -/
def Rejects {α : Type} (r : Registry) (o : Outcome α) : Prop := (∃ e, o.1 = .error e) ∧ r.ThrowsUnchanged o

theorem rejects_iff {α : Type} {o : Outcome α} (h : r.ThrowsUnchanged o) : r.Rejects o ↔ ∃ e, o.1 = .error e :=
  and_iff_left h

/-- A registration over a stored record of the same generation is a repeat or throws. -/
theorem registerRecord_stored (D : Domain tag gen ρ) {x current : ρ} (ha : r.Accepts env)
    (hold : (D.table r)[D.id x]? = some current) (hgen : D.generation x = D.generation current) :
    registerRecord D r x env =
      if D.same x current then (.ok (D.id x), r) else (.error (D.stale x current), r.countDuplicate) := by
  rw [registerRecord, authorized_accepted ha]
  simp [hold, hgen]

/-- A conflict throws unless it passes for a repeat. -/
theorem registerRecord_conflict_iff (D : Domain tag gen ρ) (x : ρ) :
    (D.Conflicts r x → ∃ e, (registerRecord D r x env).1 = .error e) ↔ ¬ (r.Accepts env ∧ D.Blurs r x) := by
  constructor
  · rintro h ⟨ha, current, hold, hgen, hne, hsame⟩
    obtain ⟨e, he⟩ := h ⟨current, hold, hgen, hne⟩
    rw [registerRecord_stored D ha hold hgen, if_pos hsame] at he
    cases he
  · rintro h ⟨current, hold, hgen, hne⟩
    by_cases ha : r.Accepts env
    · have hsame : ¬ D.same x current := fun hsame => h ⟨ha, current, hold, hgen, hne, hsame⟩
      rw [registerRecord_stored D ha hold hgen, if_neg hsame]
      exact ⟨_, rfl⟩
    · obtain ⟨e, he⟩ := authorized_rejected ha (_ : Outcome (Id tag))
      exact ⟨e, congrArg Prod.fst he⟩

end

/-! ## The eight registrations -/

/-- The call registers a descriptor that conflicts with the stored one. -/
def Conflicting (r : Registry) : Op → Prop
  | .register_service svc _ => services_.Conflicts r svc
  | .register_runtime rt _ => runtimes_.Conflicts r rt
  | .register_protocol pd _ => protocols_.Conflicts r pd
  | .register_endpoint ep _ => endpoints_.Conflicts r ep
  | .register_capability cap _ => capabilities_.Conflicts r cap
  | .register_backend bd _ => backends_.Conflicts r bd
  | .register_device dd _ => devices_.Conflicts r dd
  | .register_node nd _ => nodes_.Conflicts r nd
  | _ => False

/-- The stored descriptor differs in nothing but texts of its version that do not
count in the comparison and, for a capability, parts of its value that do not. -/
def Unnoticed (r : Registry) : Op → Prop
  | .register_service svc _ => ∃ current, r.services[svc.service_id]? = some current ∧ svc ≠ current ∧
      { svc with version := current.version } = current ∧ svc.version.compare current.version = 0
  | .register_runtime rt _ => ∃ current, r.runtime_instances[rt.runtime_instance]? = some current ∧ rt ≠ current ∧
      { rt with version := current.version } = current ∧ rt.version.compare current.version = 0
  | .register_backend bd _ => ∃ current, r.backends[bd.backend_id]? = some current ∧ bd ≠ current ∧
      { bd with version := current.version } = current ∧ bd.version.compare current.version = 0
  | .register_capability cap _ => ∃ current, r.capabilities[cap.capability_id]? = some current ∧ cap ≠ current ∧
      { cap with version := current.version, value := current.value } = current ∧
      cap.version.compare current.version = 0 ∧ cap.value.eq current.value
  | _ => False

/-- What `operator==` compares, the generation among it. -/
theorem Domain.blurs_iff {tag : IdTag} {gen : GenTag} {ρ : Type} {D : Domain tag gen ρ} {x : ρ} {P : ρ → Prop}
    (hsame : ∀ current, D.same x current ↔ P current) (hgen : ∀ current, P current → D.generation x = D.generation current) :
    D.Blurs r x ↔ ∃ current, (D.table r)[D.id x]? = some current ∧ x ≠ current ∧ P current := by
  refine exists_congr fun current => and_congr_right fun _ => ?_
  rw [hsame]
  exact and_iff_right_of_imp fun h => hgen current h.2

theorem unnoticed_services (svc : ServiceDescriptor) (env : AuthorityEnvelope) :
    services_.Blurs r svc ↔ r.Unnoticed (.register_service svc env) :=
  Domain.blurs_iff (fun current => by simp [services_, BEq.beq]) fun _ h => congrArg (·.generation) h.1

theorem unnoticed_runtimes (rt : RuntimeDescriptor) (env : AuthorityEnvelope) :
    runtimes_.Blurs r rt ↔ r.Unnoticed (.register_runtime rt env) :=
  Domain.blurs_iff (fun current => by simp [runtimes_, BEq.beq]) fun _ h => congrArg (·.generation) h.1

theorem unnoticed_backends (bd : BackendDescriptor) (env : AuthorityEnvelope) :
    backends_.Blurs r bd ↔ r.Unnoticed (.register_backend bd env) :=
  Domain.blurs_iff (fun current => by simp [backends_, BEq.beq]) fun _ h => congrArg (·.generation) h.1

theorem unnoticed_capabilities (cap : CapabilityDescriptor) (env : AuthorityEnvelope) :
    capabilities_.Blurs r cap ↔ r.Unnoticed (.register_capability cap env) := by
  refine Domain.blurs_iff (fun current => ?_) fun _ h => congrArg (·.generation) h.1
  obtain ⟨_, _, _, _, _, _, _, _, _, _⟩ := cap
  obtain ⟨_, _, _, _, _, _, _, _, _, _⟩ := current
  simp only [capabilities_, BEq.beq, Bool.and_eq_true, decide_eq_true_eq, CapabilityDescriptor.mk.injEq, true_and]
  tauto

/-- The four kinds of descriptors without a version of free text are compared with `=`. -/
theorem registerRecord_exact {tag : IdTag} {gen : GenTag} {ρ : Type} {D : Domain tag gen ρ} {x : ρ}
    (h : ∀ current, D.same x current → x = current) (hc : D.Conflicts r x) : ∃ e, (registerRecord D r x env).1 = .error e := by
  refine (registerRecord_conflict_iff D x).2 ?_ hc
  rintro ⟨_, current, _, _, hne, hsame⟩
  exact hne (h current hsame)

theorem conflict_throws_iff {op : Op} (henv : op.envelope = some env) (hclass : op.class = .descriptor)
    (scan : List ServiceInstanceId) :
    (r.Conflicting op → ∃ e, (r.exec scan op).1 = .error e) ↔ ¬ (r.Accepts env ∧ r.Unnoticed op) := by
  cases op <;> simp only [Op.class, reduceCtorEq] at hclass <;> cases henv
  case register_service svc =>
    simp only [exec, Outcome.map_fst_error, register_service, Outcome.void_fst_error]
    rw [← unnoticed_services]
    exact registerRecord_conflict_iff services_ svc
  case register_runtime rt =>
    simp only [exec, Outcome.map_fst_error]
    rw [← unnoticed_runtimes]
    exact registerRecord_conflict_iff runtimes_ rt
  case register_backend bd =>
    simp only [exec, Outcome.map_fst_error]
    rw [← unnoticed_backends]
    exact registerRecord_conflict_iff backends_ bd
  case register_capability cap =>
    simp only [exec, Outcome.map_fst_error]
    rw [← unnoticed_capabilities]
    exact registerRecord_conflict_iff capabilities_ cap
  case register_endpoint ep =>
    refine iff_of_true (fun hc => ?_) fun h => h.2
    simp only [exec, Outcome.map_fst_error]
    exact registerRecord_exact (fun _ => of_decide_eq_true) hc
  case register_device dd =>
    refine iff_of_true (fun hc => ?_) fun h => h.2
    simp only [exec, Outcome.map_fst_error]
    exact registerRecord_exact (fun _ => of_decide_eq_true) hc
  case register_protocol pd =>
    refine iff_of_true (fun hc => ?_) fun h => h.2
    simp only [exec, Outcome.map_fst_error, register_protocol, Outcome.void_fst_error]
    exact registerRecord_exact (fun _ => of_decide_eq_true) hc
  case register_node nd =>
    refine iff_of_true (fun hc => ?_) fun h => h.2
    simp only [exec, Outcome.map_fst_error, register_node, Outcome.void_fst_error]
    exact registerRecord_exact (fun _ => of_decide_eq_true) hc

/-- A descriptor that conflicts with the stored one is rejected if `operator==` tells
the two apart or the envelope is refused, and only then. -/
theorem conflict_rejected_iff (r : Registry) (scan : List ServiceInstanceId) {op : Op} (hclass : op.class = .descriptor) :
    (r.Conflicting op → r.Rejects (r.exec scan op)) ↔
      ¬ (r.Unnoticed op ∧ ∃ env, op.envelope = some env ∧ r.Accepts env) := by
  have hunchanged : r.ThrowsUnchanged (r.exec scan op) :=
    exec_throws_unchanged r scan (by cases op <;> first | rfl | cases hclass) (by rw [hclass]; decide)
  obtain ⟨env, henv⟩ : ∃ env, op.envelope = some env := by cases op <;> first | exact ⟨_, rfl⟩ | cases hclass
  rw [rejects_iff hunchanged, conflict_throws_iff henv hclass, henv]
  simp only [Option.some.injEq, exists_eq_left', and_comm]

theorem sample_service : Sample.registry.services[(⟨3⟩ : ServiceId)]? = some Sample.service := by decide +kernel

/-- The sample's service under another name is rejected. -/
theorem conflict_rejected_renamed : Sample.registry.Rejects
    (Sample.registry.exec [⟨5⟩] (.register_service { Sample.service with name := text "b" } Sample.env)) := by
  refine (conflict_rejected_iff Sample.registry [⟨5⟩] rfl).2 ?_ ⟨Sample.service, sample_service, rfl, by decide⟩
  rintro ⟨⟨current, hold, _, hsame, _⟩, _⟩
  obtain rfl : Sample.service = current := Option.some.inj (sample_service.symm.trans hold)
  exact absurd (congrArg (·.name) hsame) (by decide)

/-- The sample's service with another build text is dropped. -/
theorem conflict_dropped : Sample.registry.Reachable ∧
    Sample.registry.Conflicting (.register_service { Sample.service with version := { build := text "b" } } Sample.env) ∧
    (Sample.registry.exec [⟨5⟩]
      (.register_service { Sample.service with version := { build := text "b" } } Sample.env)).Returns := by
  refine ⟨Sample.registry_reachable.reachable, ⟨Sample.service, sample_service, rfl, by decide⟩, ?_⟩
  exact exists_ok (by decide +kernel)

end Registry

end RuntimeRegistry
