import RuntimeRegistry.Evidence
import RuntimeRegistry.LoadFailures
import RuntimeRegistry.Lib.Views
/-!
# The two views of the runtimes

`runtime_instances_` holds every runtime instance under its own id, `runtimes_` one
record for each runtime. A first registration writes both, an upgrade only the
former, so the latter is left behind when the instance it shows is upgraded.
-/
open Lib

namespace RuntimeRegistry

namespace Registry

variable {r s t : Registry} {env : AuthorityEnvelope} {scan : List ServiceInstanceId}

def find_runtime (r : Registry) (id : RuntimeId) : Option RuntimeDescriptor := r.runtimes[id]?

def find_runtime_instance (r : Registry) (id : RuntimeInstanceId) : Option RuntimeDescriptor := r.runtime_instances[id]?

/-- What is found under a runtime is stored under its instance, and no instance of
the runtime is newer. -/
def RuntimesAgree (r : Registry) : Prop :=
  ∀ id x, r.find_runtime id = some x → r.find_runtime_instance x.runtime_instance = some x ∧
    ∀ k y, r.find_runtime_instance k = some y → y.runtime_id = id → y.generation ≤ x.generation

theorem runtimesAgree_iff : r.RuntimesAgree ↔
    Latest RuntimeDescriptor.runtime_instance RuntimeDescriptor.runtime_id RuntimeDescriptor.generation r.runtimes
      r.runtime_instances :=
  ⟨fun h => ⟨fun id x hx => (h id x hx).1, fun id x hx => (h id x hx).2⟩,
    fun h id x hx => ⟨h.stored id x hx, h.newest id x hx⟩⟩

/-- The two hold the same runtimes. -/
structure SameRuntimes (r t : Registry) : Prop where
  runtimes : t.runtimes = r.runtimes
  runtime_instances : t.runtime_instances = r.runtime_instances

theorem SameRuntimes.trans (h : SameRuntimes r s) (h' : SameRuntimes s t) : SameRuntimes r t :=
  ⟨h'.1.trans h.1, h'.2.trans h.2⟩

theorem SameRuntimes.agree (h : SameRuntimes r t) (hr : r.RuntimesAgree) : t.RuntimesAgree := by
  rw [runtimesAgree_iff] at hr ⊢
  rwa [h.runtimes, h.runtime_instances]

/-! ## Calls that leave them alone -/

theorem rebuild_indexes_runtimes (r : Registry) : SameRuntimes r r.rebuild_indexes := by
  obtain ⟨_, _, _, _, h⟩ := rebuild_indexes_writes r
  rw [h]
  exact ⟨rfl, rfl⟩

theorem withRecords_runtimes (r s : Registry) : SameRuntimes r (r.withRecords s) := ⟨rfl, rfl⟩

theorem restore_runtimes (header : Header) (r : Registry) : SameRuntimes r (restore header r) :=
  .trans (s := { r with
    authority := header.authority
    next_boot := header.next_boot
    next_id := header.next_id
    instances := r.instances.map fun _ => recoverInstance
    endpoints := r.endpoints.map fun _ => recoverEndpoint
    capabilities := r.capabilities.map fun _ => recoverCapability
    leases := r.leases.map fun _ => recoverLease }) ⟨rfl, rfl⟩ ((rebuild_indexes_runtimes _).trans ⟨rfl, rfl⟩)

theorem descriptor_runtimes {op : Op} (hclass : op.class = .descriptor)
    (hop : ∀ x env, op ≠ .register_runtime x env) : SameRuntimes r (r.exec scan op).2 := by
  have hcommit : ∀ x s, SameRuntimes s (services_.commit x s).2 := fun x s =>
    .trans (s := { s with authority := services_.raise (services_.generation x) s.authority }.commit_registry_generation)
      ⟨rfl, rfl⟩ (rebuild_indexes_runtimes _)
  refine descriptor_rel hclass (fun _ _ _ => ⟨rfl, rfl⟩) (fun _ _ _ => .trans) fun h => ?_
  cases h
  case runtime => exact absurd rfl (hop _ _)
  case service =>
    refine ⟨fun current y s => .trans (s := services_.replace current y s) ⟨rfl, rfl⟩ (hcommit y _), fun y s => ?_⟩
    exact .trans (s := services_.insert y s) ⟨rfl, rfl⟩ (hcommit y _)
  all_goals exact ⟨fun _ _ _ => ⟨rfl, rfl⟩, fun _ _ => ⟨rfl, rfl⟩⟩

/-- Only `register_runtime` and `load_from` write runtimes. -/
theorem exec_runtimes {op : Op} (himage : op.class ≠ .image) (hop : ∀ x env, op ≠ .register_runtime x env) :
    SameRuntimes r (r.exec scan op).2 := by
  have h := r.exec_writes scan op
  rcases hc : op.class <;> rw [hc] at h
  case descriptor => exact descriptor_runtimes hc hop
  case inst =>
    obtain ⟨_, _, _, _, _, _, _, _, _, _, _, _, h⟩ := h
    rw [h]
    exact ⟨rfl, rfl⟩
  case lease | tombstone =>
    obtain ⟨_, _, _, _, h, -⟩ := h
    rw [h]
    exact ⟨rfl, rfl⟩
  case note =>
    obtain ⟨_, _, _, h, -⟩ := h
    rw [h]
    exact ⟨rfl, rfl⟩
  case incarnation =>
    cases op <;> simp only [Op.class, reduceCtorEq] at hc
    case begin_coordinator_epoch => exact ⟨rfl, rfl⟩
    case adopt_worker worker =>
      obtain ⟨_, _, _, _, _, h⟩ := adopt_worker_writes r worker
      simp only [exec, h]
      exact ⟨rfl, rfl⟩
    case mark_worker_died boot =>
      obtain ⟨_, _, _, _, h⟩ := revoke_writes r boot
      simp only [exec, mark_worker_died, h]
      exact ⟨rfl, rfl⟩
  case image => exact absurd hc himage

/-! ## Registrations -/

/-- The id that a new runtime instance is stored under. -/
def runtimeId (r : Registry) (x : RuntimeDescriptor) : RuntimeInstanceId :=
  if x.runtime_instance.value = 0 then ⟨r.next_id⟩ else x.runtime_instance

/-- The record is the newest of its runtime, and no other runtime shows what it
replaces. -/
def NewestOfRuntime (r : Registry) (x : RuntimeDescriptor) : Prop :=
  (∀ k y, r.find_runtime_instance k = some y → k ≠ r.runtimeId x → y.runtime_id = x.runtime_id →
    y.generation ≤ x.generation) ∧
  ∀ id y, r.find_runtime id = some y → id ≠ x.runtime_id → y.runtime_instance ≠ r.runtimeId x

/-- No runtime shows the instance that the record upgrades, and its own runtime
shows no older one. -/
def Unshown (r : Registry) (x : RuntimeDescriptor) : Prop :=
  ∀ id y, r.find_runtime id = some y →
    y.runtime_instance ≠ x.runtime_instance ∧ (x.runtime_id = id → x.generation ≤ y.generation)

/-- A new instance leaves the views in agreement if it is the newest of its runtime. -/
theorem runtime_inserted (h : r.RuntimesAgree) {x : RuntimeDescriptor} (hnewest : r.NewestOfRuntime x) :
    (runtimes_.insert (runtimes_.assign x r).1 (runtimes_.assign x r).2).RuntimesAgree := by
  rw [runtimesAgree_iff] at h
  refine Domain.assign_rule (P := fun y s => (runtimes_.insert y s).RuntimesAgree) runtimes_ rfl (fun h0 => ?_)
    fun h0 => ?_
  · have hid : r.runtimeId x = ⟨r.next_id⟩ := if_pos h0
    rw [NewestOfRuntime, hid] at hnewest
    exact runtimesAgree_iff.2
      (h.insert (x := { x with runtime_instance := ⟨r.next_id⟩ }) hnewest.1 hnewest.2)
  · have hid : r.runtimeId x = x.runtime_instance := if_neg h0
    rw [NewestOfRuntime, hid] at hnewest
    exact runtimesAgree_iff.2 (h.insert hnewest.1 hnewest.2)

/-- An upgrade leaves them in agreement if and only if no runtime shows the instance. -/
theorem runtime_replaced_iff (h : r.RuntimesAgree) {x current : RuntimeDescriptor}
    (hold : r.runtime_instances[x.runtime_instance]? = some current) (hlt : current.generation < x.generation) :
    (runtimes_.replace current x r).RuntimesAgree ↔ r.Unshown x := by
  have hne : current ≠ x := fun he => hlt.ne (congrArg (·.generation) he)
  exact runtimesAgree_iff.trans ((runtimesAgree_iff.1 h).replace_iff hold hne)

/-- The call leaves the views in agreement: a new instance is the newest of its
runtime, an upgraded one is shown by none, and the records of an image agree. -/
structure KeepsRuntimes (r : Registry) (e : Event) : Prop where
  inserted : ∀ x env, e.op = .register_runtime x env → r.Accepts env → r.find_runtime_instance x.runtime_instance = none →
    runtimes_.fenced x r = none → r.NewestOfRuntime x
  upgraded : ∀ x env, e.op = .register_runtime x env → r.Accepts env → ∀ current,
    r.find_runtime_instance x.runtime_instance = some current → current.generation < x.generation → r.Unshown x
  image : ∀ data, e.op = .load_from data → Admitted data → (imageRecords data).2.RuntimesAgree

theorem RuntimesAgree.step {e : Event} (h : r.RuntimesAgree) (hs : Step r e t) (hk : r.KeepsRuntimes e) :
    t.RuntimesAgree := by
  rw [hs.state]
  by_cases himage : e.op.class = .image
  · obtain ⟨data, hop⟩ := Op.eq_load_from himage
    rw [hop]
    apply load_from_rule (P := RuntimesAgree)
    case refused => exact fun _ => h
    case broken => exact fun ha _ => (withRecords_runtimes _ r).agree (hk.image data hop ha)
    case restored =>
      exact fun ha _ => ((withRecords_runtimes _ r).trans (restore_runtimes _ _)).agree (hk.image data hop ha)
  by_cases hop : ∃ x env, e.op = .register_runtime x env
  · obtain ⟨x, env, hop⟩ := hop
    have hkept : ∀ y s, s.RuntimesAgree → (runtimes_.commit y s).2.RuntimesAgree :=
      fun _ _ => SameRuntimes.agree ⟨rfl, rfl⟩
    rw [hop]
    refine registerRecord_rule runtimes_ (P := fun o => o.2.RuntimesAgree) ?rejected ?repeated ?stale ?replaced ?fenced
      ?inserted
    case rejected => exact fun _ _ => h
    case repeated => exact fun _ _ _ _ _ => h
    case stale => exact fun _ _ _ _ => h
    case fenced => exact fun _ _ _ _ => h
    case replaced =>
      intro ha current hold hlt
      exact hkept _ _ ((runtime_replaced_iff h hold hlt).2 (hk.upgraded x env hop ha current hold hlt))
    case inserted =>
      intro ha hnone hfence
      exact hkept _ _ (runtime_inserted h (hk.inserted x env hop ha hnone hfence))
  · exact (exec_runtimes himage fun x env he => hop ⟨x, env, he⟩).agree h

theorem fresh_runtimes_agree : fresh.RuntimesAgree := by
  have hruntimes : fresh.runtimes = ∅ := Std.ExtTreeMap.isEmpty_iff.1 (by decide +kernel)
  rw [runtimesAgree_iff, hruntimes]
  exact Latest.empty _

/-- In every run whose calls keep the views in agreement they agree in every state. -/
theorem runtimes_agree (h : Lib.Reachable (Guarded Step KeepsRuntimes) fresh r) : r.RuntimesAgree :=
  h.inv RuntimesAgree fresh_runtimes_agree fun _ _ _ hr hst => hr.step hst.1 hst.2

end Registry

/-- An instance of one runtime at a generation. -/
def Sample.launch (id generation : UInt64) : RuntimeDescriptor :=
  { runtime_id := ⟨1⟩, runtime_instance := ⟨id⟩, generation := ⟨generation⟩ }

def Sample.launches (xs : List RuntimeDescriptor) : List Op :=
  .adopt_worker ⟨1⟩ :: xs.map fun x => .register_runtime x Sample.env

namespace Registry

/-- A second instance of the runtime is newer, and the first is upgraded to a
generation in between. -/
theorem runtimes_agree_sample :
    (fresh.after (Sample.launches [Sample.launch 2 1, Sample.launch 3 5, Sample.launch 2 3])).RuntimesAgree := by
  have hnew : ∀ (s : Registry) x, s.find_runtime_instance x.runtime_instance = none →
      (∀ kx ∈ s.runtime_instances.toList, kx.2.generation ≤ x.generation) →
      (∀ kx ∈ s.runtimes.toList, kx.1 = x.runtime_id) → s.KeepsRuntimes (s.call (.register_runtime x Sample.env)) := by
    intro s x hnone hinstances hruntimes
    have hnewest : Table.All (fun _ y => y.generation ≤ x.generation) s.runtime_instances := .of_toList hinstances
    have hone : Table.All (fun id _ => id = x.runtime_id) s.runtimes := .of_toList hruntimes
    refine ⟨?_, ?_, fun _ h => (nomatch h)⟩
    · rintro _ _ ⟨⟩ _ _ _
      exact ⟨fun k y hy _ _ => hnewest k y hy, fun id y hy hne => absurd (hone id y hy) hne⟩
    · rintro _ _ ⟨⟩ _ current hold
      cases hnone.symm.trans hold
  have hupgrade : ∀ (s : Registry) x, (s.find_runtime_instance x.runtime_instance).isSome →
      (∀ kx ∈ s.runtimes.toList, kx.2.runtime_instance ≠ x.runtime_instance ∧ x.generation ≤ kx.2.generation) →
      s.KeepsRuntimes (s.call (.register_runtime x Sample.env)) := by
    intro s x hsome hruntimes
    have hshown : Table.All (fun _ y => y.runtime_instance ≠ x.runtime_instance ∧ x.generation ≤ y.generation)
        s.runtimes := .of_toList hruntimes
    refine ⟨?_, ?_, fun _ h => (nomatch h)⟩
    · rintro _ _ ⟨⟩ _ hnone
      rw [hnone] at hsome
      cases hsome
    · rintro _ _ ⟨⟩ _ _ _ _ id y hy
      exact ⟨(hshown id y hy).1, fun _ => (hshown id y hy).2⟩
  have hmeets : Meets (fun r op => r.KeepsRuntimes (r.call op)) fresh
      (Sample.launches [Sample.launch 2 1, Sample.launch 3 5, Sample.launch 2 3]) :=
    ⟨⟨fun _ _ h => (nomatch h), fun _ _ h => (nomatch h), fun _ h => (nomatch h)⟩,
      hnew _ _ (by decide +kernel) (by decide +kernel) (by decide +kernel),
      hnew _ _ (by decide +kernel) (by decide +kernel) (by decide +kernel),
      hupgrade _ _ (by decide +kernel) (by decide +kernel), trivial⟩
  exact runtimes_agree hmeets.calls

/-- An upgrade is not seen under the runtime. -/
theorem runtimes_differ :
    let r := fresh.after (Sample.launches [Sample.launch 2 1, Sample.launch 2 2])
    r.Reachable ∧ ¬ r.RuntimesAgree := by
  intro r
  have hshown : ∃ x ∈ r.runtimes[(⟨1⟩ : RuntimeId)]?, x.runtime_instance = ⟨2⟩ ∧ x.generation = ⟨1⟩ := by decide +kernel
  have hstored : ∃ y ∈ r.runtime_instances[(⟨2⟩ : RuntimeInstanceId)]?, y.generation = ⟨2⟩ := by decide +kernel
  obtain ⟨x, hx, hid, hgen⟩ := hshown
  obtain ⟨y, hy, hgen'⟩ := hstored
  refine ⟨Reachable.after (.refl _) _, fun h => ?_⟩
  have heq := (h ⟨1⟩ x hx).1
  rw [hid, find_runtime_instance, hy, Option.some.injEq] at heq
  rw [heq, hgen] at hgen'
  exact absurd hgen' (by decide)

end Registry

end RuntimeRegistry
