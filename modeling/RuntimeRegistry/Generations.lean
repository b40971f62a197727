import RuntimeRegistry.Lib.Growth
import RuntimeRegistry.Evidence
/-!
# The generations of the descriptors

The eight descriptor tables only move forward: no call but `load_from` takes a
key out, and a registration that names its id replaces a record by a newer one
only. Endpoints and capabilities are edited in place as well, which keeps their
generations.
-/
open Lib

namespace RuntimeRegistry

/-- The call brings the id of the descriptor it registers, where 0 asks for one. -/
def Op.NamesDescriptor : Op → Prop
  | .register_runtime rt _ => rt.runtime_instance.value ≠ 0
  | .register_endpoint ep _ => ep.endpoint_id.value ≠ 0
  | .register_capability cap _ => cap.capability_id.value ≠ 0
  | .register_backend bd _ => bd.backend_id.value ≠ 0
  | .register_device dd _ => dd.device_id.value ≠ 0
  | _ => True

namespace Registry

variable {r s t : Registry} {env : AuthorityEnvelope} {scan : List ServiceInstanceId}

/-- The descriptor tables of two states are related, each by its generations. -/
structure OnDescriptors (R : ∀ {tag : IdTag} {gen : GenTag} {ρ : Type}, (ρ → Gen gen) → Map tag ρ → Map tag ρ → Prop)
    (r t : Registry) : Prop where
  services : R (·.generation) r.services t.services
  runtime_instances : R (·.generation) r.runtime_instances t.runtime_instances
  endpoints : R (·.generation) r.endpoints t.endpoints
  protocols : R (·.generation) r.protocols t.protocols
  backends : R (·.generation) r.backends t.backends
  devices : R (·.generation) r.devices t.devices
  capabilities : R (·.generation) r.capabilities t.capabilities
  nodes : R (·.generation) r.nodes t.nodes

/-- No key is gone, and no generation is lower. -/
def Advances (r t : Registry) : Prop := OnDescriptors (fun generation => Table.Grows generation) r t

/-- Every record is still there, or replaced by one of a higher generation. -/
def Renewed (r t : Registry) : Prop := OnDescriptors (fun generation => Table.Renews generation) r t

theorem Advances.refl (r : Registry) : r.Advances r :=
  ⟨.refl _ _, .refl _ _, .refl _ _, .refl _ _, .refl _ _, .refl _ _, .refl _ _, .refl _ _⟩

theorem Advances.trans (h : r.Advances s) (h' : s.Advances t) : r.Advances t :=
  ⟨h.1.trans h'.1, h.2.trans h'.2, h.3.trans h'.3, h.4.trans h'.4, h.5.trans h'.5, h.6.trans h'.6, h.7.trans h'.7,
    h.8.trans h'.8⟩

theorem Renewed.advances (h : r.Renewed t) : r.Advances t :=
  ⟨h.1.grows, h.2.grows, h.3.grows, h.4.grows, h.5.grows, h.6.grows, h.7.grows, h.8.grows⟩

theorem Renewed.refl (r : Registry) : r.Renewed r :=
  ⟨.refl _ _, .refl _ _, .refl _ _, .refl _ _, .refl _ _, .refl _ _, .refl _ _, .refl _ _⟩

theorem Renewed.counted (r : Registry) (accounting : Accounting) : r.Renewed { r with accounting := accounting } :=
  { Renewed.refl r with }

theorem Renewed.rebuild_indexes (h : r.Renewed t) : r.Renewed t.rebuild_indexes := by
  obtain ⟨_, _, _, _, he⟩ := rebuild_indexes_writes t
  rw [he]
  exact { h with }

/-! ## Registrations -/

section
variable {tag : IdTag} {gen : GenTag} {ρ : Type}

/-- A registration renews the tables if storing over an older record, or over none,
does. -/
theorem registerRecord_renewed {D : Domain tag gen ρ} {x : ρ} (hid : D.assign x r = (x, r))
    (hreplace : ∀ current, (∀ y, (D.table r)[D.id x]? = some y → D.generation y < D.generation x) →
      r.Renewed (D.commit x (D.replace current x r)).2)
    (hinsert : (∀ y, (D.table r)[D.id x]? = some y → D.generation y < D.generation x) →
      r.Renewed (D.commit x (D.insert x r)).2) : r.Renewed (registerRecord D r x env).2 := by
  apply registerRecord_rule D (P := fun o => r.Renewed o.2)
  case rejected => exact fun _ _ => .refl r
  case repeated => exact fun _ _ _ _ _ => .refl r
  case stale => exact fun _ _ _ _ => .counted r _
  case fenced => exact fun _ _ _ _ => .counted r _
  case replaced =>
    intro _ current hold hlt
    apply hreplace current
    rintro y hy
    obtain rfl : current = y := Option.some.inj (hold.symm.trans hy)
    exact hlt
  case inserted =>
    intro _ hnone _
    rw [hid]
    apply hinsert
    intro y hy
    cases hnone.symm.trans hy

theorem Domain.assign_named {D : Domain tag gen ρ} {x : ρ} (h : D.withId = none ∨ (D.id x).value ≠ 0) :
    D.assign x r = (x, r) := by
  unfold Domain.assign
  rcases hw : D.withId with _ | withId
  · rfl
  · exact if_neg (h.resolve_left (by simp [hw]))

end

/-- A registration of a descriptor that names its id replaces records by newer ones
only. -/
theorem descriptor_renewed {op : Op} (hc : op.class = .descriptor) (hnames : op.NamesDescriptor) :
    r.Renewed (r.exec scan op).2 := by
  cases op <;> simp only [Op.class, reduceCtorEq] at hc
  case register_service svc env =>
    simp only [exec, Outcome.map_snd, register_service, Outcome.void_snd]
    refine registerRecord_renewed (Domain.assign_named (.inl rfl)) (fun _ h => ?_) fun h => ?_
    · exact Renewed.rebuild_indexes { Renewed.refl r with services := .insert h }
    · exact Renewed.rebuild_indexes { Renewed.refl r with services := .insert h }
  case register_runtime rt env =>
    apply registerRecord_renewed (Domain.assign_named (D := runtimes_) (.inr hnames))
    · exact fun _ h => { Renewed.refl r with runtime_instances := .insert h }
    · exact fun h => { Renewed.refl r with runtime_instances := .insert h }
  case register_endpoint ep env =>
    apply registerRecord_renewed (Domain.assign_named (D := endpoints_) (.inr hnames))
    · exact fun _ h => { Renewed.refl r with endpoints := .insert h }
    · exact fun h => { Renewed.refl r with endpoints := .insert h }
  case register_capability cap env =>
    apply registerRecord_renewed (Domain.assign_named (D := capabilities_) (.inr hnames))
    · exact fun _ h => { Renewed.refl r with capabilities := .insert h }
    · exact fun h => { Renewed.refl r with capabilities := .insert h }
  case register_backend bd env =>
    apply registerRecord_renewed (Domain.assign_named (D := backends_) (.inr hnames))
    · exact fun _ h => { Renewed.refl r with backends := .insert h }
    · exact fun h => { Renewed.refl r with backends := .insert h }
  case register_device dd env =>
    apply registerRecord_renewed (Domain.assign_named (D := devices_) (.inr hnames))
    · exact fun _ h => { Renewed.refl r with devices := .insert h }
    · exact fun h => { Renewed.refl r with devices := .insert h }
  case register_protocol pd env =>
    simp only [exec, Outcome.map_snd, register_protocol, Outcome.void_snd]
    apply registerRecord_renewed (Domain.assign_named (.inl rfl))
    · exact fun _ h => { Renewed.refl r with protocols := .insert h }
    · exact fun h => { Renewed.refl r with protocols := .insert h }
  case register_node nd env =>
    simp only [exec, Outcome.map_snd, register_node, Outcome.void_snd]
    apply registerRecord_renewed (Domain.assign_named (.inl rfl))
    · exact fun _ h => { Renewed.refl r with nodes := .insert h }
    · exact fun h => { Renewed.refl r with nodes := .insert h }

/-! ## The other calls -/

theorem Claimed.generation {id : ServiceInstanceId} {ep ep' : EndpointDescriptor} (h : Claimed id ep ep') :
    ep'.generation = ep.generation := by
  rcases h with rfl | rfl <;> rfl

theorem Claimed.endpoint_id {id : ServiceInstanceId} {ep ep' : EndpointDescriptor} (h : Claimed id ep ep') :
    ep'.endpoint_id = ep.endpoint_id := by
  rcases h with rfl | rfl <;> rfl

theorem revalidateEndpoint_id (ep : EndpointDescriptor) : (revalidateEndpoint ep).endpoint_id = ep.endpoint_id := by
  unfold revalidateEndpoint
  split_ifs <;> rfl

theorem revalidateEndpoint_generation (ep : EndpointDescriptor) : (revalidateEndpoint ep).generation = ep.generation := by
  unfold revalidateEndpoint
  split_ifs <;> rfl

theorem revalidateCapability_id (cap : CapabilityDescriptor) :
    (revalidateCapability cap).capability_id = cap.capability_id := by
  unfold revalidateCapability
  split_ifs <;> rfl

theorem revalidateCapability_generation (cap : CapabilityDescriptor) :
    (revalidateCapability cap).generation = cap.generation := by
  unfold revalidateCapability
  split_ifs <;> rfl

/-- Binding, releasing and revalidating an endpoint keeps its id and its generation. -/
theorem endpoint_edited {op : Op} (hc : op.class ≠ .descriptor) (himage : op.class ≠ .image) {k : EndpointId}
    {ep : EndpointDescriptor} (hep : r.endpoints[k]? = some ep) :
    ∃ ep', (r.exec scan op).2.endpoints[k]? = some ep' ∧ ep'.endpoint_id = ep.endpoint_id ∧
      ep'.generation = ep.generation := by
  have hsame : ∀ {old : EndpointDescriptor}, r.endpoints[k]? = some old → old = ep :=
    fun hold => Option.some.inj (hold.symm.trans hep)
  cases r.exec_endpoint_change scan op himage k with
  | kept h => exact ⟨ep, h.trans hep, rfl, rfl⟩
  | registered _ _ _ hop => exact absurd (by rw [hop]; rfl) hc
  | claimed inst old ep' _ _ hold hclaimed h =>
    obtain rfl := hsame hold
    exact ⟨ep', h, hclaimed.endpoint_id, hclaimed.generation⟩
  | updated rc env old _ hu h =>
    obtain rfl := hsame hu.2.1
    exact ⟨_, h, rfl, rfl⟩
  | released boot old _ _ hold _ h =>
    obtain rfl := hsame hold
    exact ⟨_, h, rfl, rfl⟩
  | revalidated old _ hold h =>
    obtain rfl := hsame hold
    exact ⟨_, h, revalidateEndpoint_id old, revalidateEndpoint_generation old⟩

theorem endpoints_grow {op : Op} (hc : op.class ≠ .descriptor) (himage : op.class ≠ .image) :
    Table.Grows (·.generation) r.endpoints (r.exec scan op).2.endpoints := by
  intro k ep hep
  obtain ⟨ep', hep', _, hgen⟩ := endpoint_edited hc himage hep
  exact ⟨ep', hep', hgen.ge⟩

/-- A call that registers no descriptor edits endpoints and capabilities at most. -/
theorem other_advances {op : Op} (hc : op.class ≠ .descriptor) (himage : op.class ≠ .image) :
    r.Advances (r.exec scan op).2 := by
  have hep : Table.Grows (·.generation) r.endpoints (r.exec scan op).2.endpoints := endpoints_grow hc himage
  have hw := r.exec_writes scan op
  rcases hcl : op.class <;> rw [hcl] at hw
  case inst =>
    obtain ⟨_, _, _, _, _, _, _, _, _, _, _, _, hw⟩ := hw
    rw [hw] at hep ⊢
    exact { Advances.refl r with endpoints := hep }
  case lease | tombstone =>
    obtain ⟨_, _, _, _, hw, -⟩ := hw
    rw [hw]
    exact { Advances.refl r with }
  case note =>
    obtain ⟨_, _, _, hw, -⟩ := hw
    rw [hw]
    exact { Advances.refl r with }
  case incarnation =>
    cases op <;> simp only [Op.class, reduceCtorEq] at hcl
    case begin_coordinator_epoch =>
      exact { Advances.refl r with
        endpoints := hep, capabilities := .map fun cap => (revalidateCapability_generation cap).ge }
    case adopt_worker worker =>
      obtain ⟨_, _, _, _, _, hw⟩ := adopt_worker_writes r worker
      simp only [exec, hw] at hep ⊢
      exact { Advances.refl r with endpoints := hep }
    case mark_worker_died boot =>
      obtain ⟨_, _, _, _, hw⟩ := revoke_writes r boot
      simp only [exec, mark_worker_died, hw] at hep ⊢
      exact { Advances.refl r with endpoints := hep }
  case descriptor => exact absurd hcl hc
  case image => exact absurd hcl himage

/-! ## Runs -/

theorem Advances.step {e : Event} (hs : Step s e t) (hload : e.noLoad) (hnames : e.op.NamesDescriptor) : s.Advances t := by
  rw [hs.state]
  by_cases hc : e.op.class = .descriptor
  · exact (descriptor_renewed hc hnames).advances
  · exact other_advances hc hload.class_ne

/-- In every run without `load_from` whose registrations name their ids, no descriptor
table loses a key and no stored generation falls, and a registration that follows
replaces a descriptor only by one of a higher generation. -/
theorem generations_never_regress {es : List Event}
    (h : Run (Guarded Step fun _ e => e.noLoad ∧ e.op.NamesDescriptor) s es t) :
    s.Advances t ∧ ∀ e u, Step t e u → e.op.class = .descriptor → e.op.NamesDescriptor → t.Renewed u := by
  refine ⟨h.rel Advances .refl (fun _ _ _ => .trans) fun _ _ _ hs => .step hs.1 hs.2.1 hs.2.2, ?_⟩
  intro e u hs hc hnames
  rw [hs.state]
  exact descriptor_renewed hc hnames

/-- The service of the sample is registered again, with a higher generation. -/
theorem generations_never_regress_service :
    let t := Sample.registry.after [.register_service { Sample.service with generation := ⟨2⟩ } Sample.env]
    Sample.registry.Advances t ∧ ∀ e u, Step t e u → e.op.class = .descriptor → e.op.NamesDescriptor → t.Renewed u := by
  intro t
  obtain ⟨es, hr⟩ := run_after Sample.registry
    (Q := fun op => (∀ data, op ≠ .load_from data) ∧ op.NamesDescriptor)
    [.register_service { Sample.service with generation := ⟨2⟩ } Sample.env] (by simp [Op.NamesDescriptor])
  exact generations_never_regress hr

end Registry

end RuntimeRegistry
