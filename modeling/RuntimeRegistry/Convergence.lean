import RuntimeRegistry.Lib.Newest
import RuntimeRegistry.Retries
import RuntimeRegistry.Tombstones
/-!
# Registrations in any order

Messages with descriptors may come late, twice or in any order. Where records of one id and
one generation are equal, the tables end with the newest record of each id, so they depend
on which registrations came, and on nothing else.
-/
open Lib

namespace RuntimeRegistry

/-! ## The kinds of descriptors -/

inductive DescriptorKind
  | service | runtime | protocol | endpoint | capability | backend | device | node

namespace DescriptorKind

def tag : DescriptorKind → IdTag
  | service => .ServiceId
  | runtime => .RuntimeInstanceId
  | protocol => .ProtocolId
  | endpoint => .EndpointId
  | capability => .CapabilityId
  | backend => .BackendId
  | device => .DeviceId
  | node => .NodeId

def gen : DescriptorKind → GenTag
  | service => .ServiceGeneration
  | runtime => .RuntimeGeneration
  | protocol => .ProtocolGeneration
  | endpoint => .EndpointGeneration
  | capability => .CapabilityGeneration
  | backend => .BackendGeneration
  | device => .DeviceGeneration
  | node => .NodeGeneration

def Descriptor : DescriptorKind → Type
  | service => ServiceDescriptor
  | runtime => RuntimeDescriptor
  | protocol => ProtocolDescriptor
  | endpoint => EndpointDescriptor
  | capability => CapabilityDescriptor
  | backend => BackendDescriptor
  | device => DeviceDescriptor
  | node => NodeDescriptor

def domain : (κ : DescriptorKind) → Registry.Domain κ.tag κ.gen κ.Descriptor
  | service => Registry.services_
  | runtime => Registry.runtimes_
  | protocol => Registry.protocols_
  | endpoint => Registry.endpoints_
  | capability => Registry.capabilities_
  | backend => Registry.backends_
  | device => Registry.devices_
  | node => Registry.nodes_

/-- The record that a call registers, if it is one of the kind. -/
def record : (κ : DescriptorKind) → Op → Option (κ.Descriptor × AuthorityEnvelope)
  | service, .register_service svc env => some (svc, env)
  | runtime, .register_runtime rt env => some (rt, env)
  | protocol, .register_protocol pd env => some (pd, env)
  | endpoint, .register_endpoint ep env => some (ep, env)
  | capability, .register_capability cap env => some (cap, env)
  | backend, .register_backend bd env => some (bd, env)
  | device, .register_device dd env => some (dd, env)
  | node, .register_node nd env => some (nd, env)
  | _, _ => none

open Registry

variable {κ : DescriptorKind} {op : Op} {x : κ.Descriptor} {env : AuthorityEnvelope}

theorem registers (h : κ.record op = some (x, env)) : Registers op κ.domain x env := by
  cases κ <;> cases op <;> cases h <;> constructor

theorem lawful (κ : DescriptorKind) : κ.domain.Lawful := by
  cases κ
  case service => exact services_lawful
  case runtime => exact runtimes_lawful
  case protocol => exact protocols_lawful
  case endpoint => exact endpoints_lawful
  case capability => exact capabilities_lawful
  case backend => exact backends_lawful
  case device => exact devices_lawful
  case node => exact nodes_lawful

/-- A registration leaves the tables of the other kinds as they are. -/
theorem table_other (r : Registry) (scan : List ServiceInstanceId) (hc : op.class = .descriptor) (h : κ.record op = none) :
    κ.domain.table (r.exec scan op).2 = κ.domain.table r := by
  refine descriptor_rel (R := fun s t => κ.domain.table t = κ.domain.table s) hc (fun s accounting next_id => ?_)
    (fun _ _ _ h₁ h₂ => h₂.trans h₁) fun hreg => ?_
  · cases κ <;> rfl
  · have hindexes : ∀ s : Registry, κ.domain.table s.rebuild_indexes = κ.domain.table s := by
      intro s
      obtain ⟨_, _, _, _, hs⟩ := rebuild_indexes_writes s
      rw [hs]
      cases κ <;> rfl
    cases hreg
    case service =>
      refine ⟨fun _ y s => (hindexes _).trans ?_, fun y s => (hindexes _).trans ?_⟩ <;>
        (cases κ <;> first | rfl | cases h)
    all_goals
      refine ⟨fun _ y s => ?_, fun y s => ?_⟩ <;> (cases κ <;> first | rfl | cases h)

end DescriptorKind

namespace Registry

variable {r t : Registry} {env : AuthorityEnvelope} {scan : List ServiceInstanceId}

/-! ## One registration -/

section
variable {tag : IdTag} {gen : GenTag} {ρ : Type}

/-- A new record of the domain is refused under the tombstones of the registry. -/
def Domain.bars (D : Domain tag gen ρ) (r : Registry) (x : ρ) : Bool := (D.fenced x r).isSome

/-- What is barred bars the older records of its id. -/
theorem Domain.bars_older (D : Domain tag gen ρ) {x y : ρ} (hid : D.id x = D.id y) (hle : D.generation x ≤ D.generation y)
    (hy : D.bars r y = true) : D.bars r x = true := by
  unfold bars fenced at hy ⊢
  rcases hf : D.fence with _ | f
  · simp [hf] at hy
  · simp only [hf, Option.filter_some, Option.isSome_ite] at hy ⊢
    rw [covered_by_tombstone_iff] at hy ⊢
    obtain ⟨id, tomb, htomb, hcovers⟩ := hy
    rw [covers_iff] at hcovers
    exact ⟨id, tomb, htomb, covers_iff.2 ⟨hcovers.1, by rw [hid]; exact hcovers.2.1, UInt64.le_trans hle hcovers.2.2⟩⟩

/-- A registration offers its record to the table under the record's id. -/
theorem registerRecord_offer {D : Domain tag gen ρ} (hD : D.Lawful) {x : ρ} (hnamed : (D.id x).value ≠ 0) (ha : r.Accepts env)
    (k : Id tag) : (D.table (registerRecord D r x env).2)[k]? =
      if D.id x = k then offer D.generation (D.bars r) (D.table r)[k]? x else (D.table r)[k]? := by
  have hassign : D.assign x r = (x, r) := by
    unfold Domain.assign
    split
    · exact if_neg hnamed
    · rfl
  by_cases hk : D.id x = k
  · subst hk
    rw [if_pos rfl]
    refine registerRecord_rule D (P := fun o => (D.table o.2)[D.id x]? = offer D.generation (D.bars r) (D.table r)[D.id x]? x)
      (fun _ hr => absurd ha hr) (fun _ current hold hgen _ => ?_) (fun _ current hold hle => ?_) (fun _ current hold hlt => ?_)
      (fun _ hnone f hf => ?_) fun _ hnone hf => ?_
    · rw [hold, offer, hgen, if_neg (lt_irrefl _)]
    · have hcount : D.table r.countDuplicate = D.table r := hD.table_accounting _ _
      rw [hcount, hold, offer, if_neg (not_lt.2 hle)]
    · rw [hD.table_commit, hD.table_replace, hold, offer, if_pos hlt]
      simp
    · have hcount : D.table r.countStale = D.table r := hD.table_accounting _ _
      rw [hcount, hnone, offer, Domain.bars, hf]
      rfl
    · rw [hassign, hD.table_commit, hD.table_insert, hnone, offer, Domain.bars, hf]
      simp
  · rw [if_neg hk]
    rcases registerRecord_table hD r x env with h | ⟨_, k', y, hstores, h⟩
    · rw [h]
    · rw [h]
      cases hstores with
      | assigned _ _ hzero => exact absurd hzero hnamed
      | _ => rw [Std.ExtTreeMap.getElem?_insert]; simp [hk]

end

/-! ## Runs of registrations -/

/-- The record that a call offers to the table of the kind under the id. -/
def offered (r : Registry) (κ : DescriptorKind) (k : Id κ.tag) (op : Op) : Option κ.Descriptor :=
  (κ.record op).bind fun x => if r.Accepts x.2 ∧ κ.domain.id x.1 = k then some x.1 else none

theorem offered_eq_some {κ : DescriptorKind} {k : Id κ.tag} {op : Op} {x : κ.Descriptor} (h : r.offered κ k op = some x) :
    κ.domain.id x = k := by
  unfold offered at h
  rw [Option.bind_eq_some_iff] at h
  obtain ⟨y, _, hy⟩ := h
  split_ifs at hy with hk
  obtain rfl := Option.some.inj hy
  exact hk.2

/-- The registration names its record. -/
def NamesRecord (op : Op) : Prop := ∀ (κ : DescriptorKind) (x : κ.Descriptor) (env : AuthorityEnvelope),
  κ.record op = some (x, env) → (κ.domain.id x).value ≠ 0

/-- What a registration looks at besides its table. -/
structure SameGate (r t : Registry) : Prop where
  incarnations : r.authority.SameIncarnations t.authority
  tombstones : t.tombstones = r.tombstones

theorem SameGate.accepts (h : SameGate r t) : t.Accepts env ↔ r.Accepts env := by
  rw [Accepts, Accepts, RegistryAuthority.is_boot_live, RegistryAuthority.is_boot_live, h.incarnations.epoch,
    h.incarnations.live_boots]

theorem SameGate.offered (h : SameGate r t) (κ : DescriptorKind) (k : Id κ.tag) : t.offered κ k = r.offered κ k := by
  funext op
  simp only [Registry.offered, h.accepts]

theorem SameGate.bars (h : SameGate r t) {tag : IdTag} {gen : GenTag} {ρ : Type} (D : Domain tag gen ρ) : D.bars t = D.bars r := by
  funext x
  simp only [Domain.bars, Domain.fenced, covered_by_tombstone_congr h.tombstones]

theorem descriptor_gate (r : Registry) (scan : List ServiceInstanceId) {op : Op} (hc : op.class = .descriptor) :
    SameGate r (r.exec scan op).2 where
  incarnations := (r.exec_incarnations scan op (by simp [hc]) (by simp [hc])).1
  tombstones := r.exec_tombstones scan op (by simp [hc]) (by simp [hc])

/-- A registration offers its record to the table of its kind, and leaves the others. -/
theorem exec_offer (r : Registry) (scan : List ServiceInstanceId) {op : Op} (hc : op.class = .descriptor)
    (hnamed : NamesRecord op) (κ : DescriptorKind) (k : Id κ.tag) : (κ.domain.table (r.exec scan op).2)[k]? =
      (r.offered κ k op).toList.foldl (offer κ.domain.generation (κ.domain.bars r)) (κ.domain.table r)[k]? := by
  rcases hrec : κ.record op with _ | ⟨x, env⟩
  · have hoffered : r.offered κ k op = none := by rw [offered, hrec]; rfl
    rw [hoffered, DescriptorKind.table_other r scan hc hrec]
    rfl
  · have hreg := DescriptorKind.registers hrec
    rw [hreg.state]
    by_cases ha : r.Accepts env
    · rw [registerRecord_offer κ.lawful (hnamed κ x env hrec) ha k]
      by_cases hk : κ.domain.id x = k
      · have hoffered : r.offered κ k op = some x := by rw [offered, hrec]; exact if_pos ⟨ha, hk⟩
        rw [hoffered, if_pos hk]
        rfl
      · have hoffered : r.offered κ k op = none := by rw [offered, hrec]; exact if_neg fun h => hk h.2
        rw [hoffered, if_neg hk]
        rfl
    · have hoffered : r.offered κ k op = none := by rw [offered, hrec]; exact if_neg fun h => ha h.1
      obtain ⟨e, he⟩ : ∃ e, registerRecord κ.domain r x env = (.error e, r) := authorized_rejected ha _
      rw [hoffered, he]
      rfl

/-- A run of registrations offers their records one after another. -/
theorem run_offers {es : List Event} (h : Run Step r es t) (hc : ∀ e ∈ es, e.op.class = .descriptor)
    (hnamed : ∀ e ∈ es, NamesRecord e.op) (κ : DescriptorKind) (k : Id κ.tag) : (κ.domain.table t)[k]? =
      (es.filterMap fun e => r.offered κ k e.op).foldl (offer κ.domain.generation (κ.domain.bars r)) (κ.domain.table r)[k]? := by
  induction h with
  | nil => rfl
  | @cons s u v e es hs _ ih =>
    rw [List.forall_mem_cons] at hc hnamed
    have hgate : SameGate s u := hs.state ▸ descriptor_gate s e.scan hc.1
    have hone : (κ.domain.table u)[k]? = (s.offered κ k e.op).toList.foldl (offer κ.domain.generation (κ.domain.bars s))
        (κ.domain.table s)[k]? := hs.state ▸ exec_offer s e.scan hc.1 hnamed.1 κ k
    have hsplit : (e :: es).filterMap (fun e => s.offered κ k e.op) =
        (s.offered κ k e.op).toList ++ es.filterMap fun e => s.offered κ k e.op := by
      rcases ho : s.offered κ k e.op with _ | x <;> simp [ho]
    rw [ih hc.2 hnamed.2, hgate.offered, hgate.bars, hone, hsplit, List.foldl_append]

/-- Records of one kind, id and generation are equal, be they stored or offered. -/
def Consonant (r : Registry) (ops : List Op) : Prop :=
  ∀ (κ : DescriptorKind) (k : Id κ.tag) (x y : κ.Descriptor),
    ((κ.domain.table r)[k]? = some x ∨ ∃ op ∈ ops, r.offered κ k op = some x) →
    (∃ op ∈ ops, r.offered κ k op = some y) → κ.domain.generation y = κ.domain.generation x → y = x

theorem mem_offers {es : List Event} {κ : DescriptorKind} {k : Id κ.tag} {x : κ.Descriptor} :
    x ∈ (es.filterMap fun e => r.offered κ k e.op) ↔ ∃ op ∈ es.map Event.op, r.offered κ k op = some x := by
  simp [List.mem_filterMap]

theorem Consonant.coherent {es : List Event} (h : Consonant r (es.map Event.op)) (κ : DescriptorKind) (k : Id κ.tag) :
    Coherent κ.domain.generation (κ.domain.bars r) (κ.domain.table r)[k]? (es.filterMap fun e => r.offered κ k e.op) where
  stored w hw v hv hage := h κ k w v (.inl hw) (mem_offers.1 hv) hage
  offered v hv w hw hage := h κ k w v (.inr (mem_offers.1 hw)) (mem_offers.1 hv) hage
  barred v hv w hw hle hbar := by
    obtain ⟨_, _, hv⟩ := mem_offers.1 hv
    obtain ⟨_, _, hw⟩ := mem_offers.1 hw
    exact κ.domain.bars_older ((offered_eq_some hv).trans (offered_eq_some hw).symm) hle hbar

/-- After two runs of the same registrations, in any order and each any number of times, the
tables of the descriptors are the same, and each id has the newest of its records. -/
theorem registrations_converge {es es' : List Event} {t' : Registry} (h : Run Step r es t) (h' : Run Step r es' t')
    (hsame : ∀ op, op ∈ es.map Event.op ↔ op ∈ es'.map Event.op) (hc : ∀ e ∈ es, e.op.class = .descriptor)
    (hnamed : ∀ e ∈ es, NamesRecord e.op) (hconsonant : Consonant r (es.map Event.op)) (κ : DescriptorKind) (k : Id κ.tag) :
    (κ.domain.table t)[k]? = (κ.domain.table t')[k]? ∧ ∀ x, (κ.domain.table t)[k]? = some x ↔
      Newest κ.domain.generation (κ.domain.bars r) (κ.domain.table r)[k]? (es.filterMap fun e => r.offered κ k e.op) x := by
  have hback : ∀ P : Op → Prop, (∀ e ∈ es, P e.op) → ∀ e ∈ es', P e.op := by
    intro P hP e he
    obtain ⟨e₀, he₀, hop⟩ := List.mem_map.1 ((hsame e.op).2 (List.mem_map_of_mem he))
    exact hop ▸ hP e₀ he₀
  have hcoherent := hconsonant.coherent κ k
  rw [run_offers h hc hnamed κ k, run_offers h' (hback (fun op => op.class = .descriptor) hc) (hback NamesRecord hnamed) κ k]
  refine ⟨foldl_offer_congr hcoherent fun x => ?_, fun x => foldl_offer_iff hcoherent⟩
  rw [mem_offers, mem_offers]
  exact exists_congr fun op => and_congr_left fun _ => hsame op

theorem call_op (r : Registry) (op : Op) : (r.call op).op = op := rfl

/-- Two generations of a node. -/
def upgrade (generation : UInt64) : Op :=
  .register_node { node_id := ⟨7⟩, generation := ⟨generation⟩ } Sample.env

theorem upgrade_offered {κ : DescriptorKind} {k : Id κ.tag} {generation : UInt64} {x : κ.Descriptor}
    (h : Sample.registry.offered κ k (upgrade generation) = some x) :
    (Sample.registry.nodes[(⟨7⟩ : NodeId)]? = none → (κ.domain.table Sample.registry)[k]? = none) ∧
      (κ.domain.generation x).value = generation := by
  have hk := offered_eq_some h
  unfold offered at h
  cases κ
  case node =>
    simp only [DescriptorKind.record, upgrade, Option.bind_some] at h
    split_ifs at h
    obtain rfl := Option.some.inj h
    exact ⟨fun hnone => hk ▸ hnone, rfl⟩
  all_goals cases h

theorem upgrades_consonant : Consonant Sample.registry [upgrade 1, upgrade 2] := by
  have hnone : Sample.registry.nodes[(⟨7⟩ : NodeId)]? = none := by decide +kernel
  rintro κ k x y hx ⟨op, hop, hy⟩ hage
  have hupgrade : ∃ generation, op = upgrade generation := by
    simp only [List.mem_cons, List.not_mem_nil, or_false] at hop
    rcases hop with rfl | rfl <;> exact ⟨_, rfl⟩
  obtain ⟨generation, rfl⟩ := hupgrade
  obtain ⟨hempty, hgen⟩ := upgrade_offered hy
  rcases hx with hstored | ⟨op', hop', hx⟩
  · rw [hempty hnone] at hstored
    cases hstored
  · have hupgrade' : ∃ generation', op' = upgrade generation' := by
      simp only [List.mem_cons, List.not_mem_nil, or_false] at hop'
      rcases hop' with rfl | rfl <;> exact ⟨_, rfl⟩
    obtain ⟨generation', rfl⟩ := hupgrade'
    obtain rfl : generation' = generation := by rw [← (upgrade_offered hx).2, ← hgen, hage]
    exact Option.some.inj (hy.symm.trans hx)

theorem registrations_converge_nodes : (Sample.registry.after [upgrade 1, upgrade 2]).nodes[(⟨7⟩ : NodeId)]? =
    (Sample.registry.after [upgrade 2, upgrade 1, upgrade 2]).nodes[(⟨7⟩ : NodeId)]? := by
  have hnamed : ∀ generation, NamesRecord (upgrade generation) := by
    intro generation κ x env h
    cases κ <;> cases h
    exact (by decide : (7 : UInt64) ≠ 0)
  have hrun := Run.cons (step_call Sample.registry (upgrade 1)) (.cons (step_call _ (upgrade 2)) (.nil _))
  have hrun' := Run.cons (step_call Sample.registry (upgrade 2))
    (.cons (step_call _ (upgrade 1)) (.cons (step_call _ (upgrade 2)) (.nil _)))
  refine (registrations_converge hrun hrun' (fun op => ?_) ?_ ?_ upgrades_consonant .node ⟨7⟩).1
  · simp only [List.map_cons, List.map_nil, call_op, List.mem_cons, List.not_mem_nil, or_false]
    constructor
    · exact fun h => .inr h
    · rintro (h | h)
      · exact .inr h
      · exact h
  · exact List.forall_mem_cons.2 ⟨rfl, List.forall_mem_singleton.2 rfl⟩
  · exact List.forall_mem_cons.2 ⟨hnamed 1, List.forall_mem_singleton.2 (hnamed 2)⟩

end Registry

end RuntimeRegistry
