import RuntimeRegistry.Claiming
/-!
# Calls as lists of writes

The registrations and updates of services, instances, endpoints and capabilities
change the registry by a few primitive writes: a record under its id, a record put
into a history, a counter or a generation moved on. A write looks at no record, so
two of them commute unless they store under one id, up to the order of the
histories. The indexes are left to what they are computed from.
-/
open Lib

namespace RuntimeRegistry

/-! ## The writes -/

/-- What one line counts. -/
inductive Count
  | services | instances | endpoints | capabilities
  /-- an instance is superseded by a registration -/
  | superseded
  /-- an endpoint or a capability is replaced -/
  | replaced
  | duplicate | stale

def Count.run (a : Accounting) : Count → Accounting
  | .services => { a with services := a.services + 1 }
  | .instances => { a with service_instances := a.service_instances + 1, registrations := a.registrations + 1 }
  | .endpoints => { a with endpoints := a.endpoints + 1 }
  | .capabilities => { a with capabilities := a.capabilities + 1 }
  | .superseded =>
    { a with available_instances := decrement a.available_instances, supersessions := a.supersessions + 1 }
  | .replaced => { a with supersessions := a.supersessions + 1 }
  | .duplicate => { a with duplicate_conflict_rejections := a.duplicate_conflict_rejections + 1 }
  | .stale => { a with stale_mutation_rejections := a.stale_mutation_rejections + 1 }

theorem Count.run_comm (a : Accounting) (c d : Count) : c.run (d.run a) = d.run (c.run a) := by
  cases c <;> cases d <;> rfl

inductive Write
  | set_service (id : ServiceId) (svc : ServiceDescriptor)
  | set_instance (id : ServiceInstanceId) (inst : ServiceInstance)
  | set_endpoint (id : EndpointId) (ep : EndpointDescriptor)
  | set_capability (id : CapabilityId) (cap : CapabilityDescriptor)
  | history_instance (inst : ServiceInstance)
  | history_endpoint (ep : EndpointDescriptor)
  | history_capability (cap : CapabilityDescriptor)
  | raise_service (g : ServiceGeneration)
  | raise_endpoint (g : EndpointGeneration)
  | raise_capability (g : CapabilityGeneration)
  | count (c : Count)
  | commit
  | reindex

def Write.run (r : Registry) : Write → Registry
  | .set_service id svc => { r with services := r.services.insert id svc }
  | .set_instance id inst => { r with instances := r.instances.insert id inst }
  | .set_endpoint id ep => { r with endpoints := r.endpoints.insert id ep }
  | .set_capability id cap => { r with capabilities := r.capabilities.insert id cap }
  | .history_instance inst => { r with instance_history := r.instance_history ++ [inst] }
  | .history_endpoint ep => { r with endpoint_history := r.endpoint_history ++ [ep] }
  | .history_capability cap => { r with capability_history := r.capability_history ++ [cap] }
  | .raise_service g => { r with authority := { r.authority with service_gen := Registry.raiseTo r.authority.service_gen g } }
  | .raise_endpoint g =>
    { r with authority := { r.authority with endpoint_gen := Registry.raiseTo r.authority.endpoint_gen g } }
  | .raise_capability g =>
    { r with authority := { r.authority with capability_gen := Registry.raiseTo r.authority.capability_gen g } }
  | .count c => { r with accounting := c.run r.accounting }
  | .commit => r.commit_registry_generation
  | .reindex => r.rebuild_indexes

namespace Registry

variable {r s t u : Registry}

/-- The writes, in their order. -/
def written (r : Registry) (ws : List Write) : Registry := ws.foldl Write.run r

@[simp] theorem written_nil (r : Registry) : r.written [] = r := rfl

@[simp] theorem written_cons (r : Registry) (w : Write) (ws : List Write) :
    r.written (w :: ws) = (w.run r).written ws := rfl

theorem written_append (r : Registry) (ws vs : List Write) : r.written (ws ++ vs) = (r.written ws).written vs :=
  List.foldl_append ..

/-! ## Registries alike -/

/-- The registry without what depends on the order of the writes, and without the
derived indexes. -/
def unordered (r : Registry) : Registry :=
  { r with
    instance_history := [], endpoint_history := [], capability_history := []
    index_by_kind := ∅, index_by_service := ∅, index_by_boot := ∅, index_by_node := ∅ }

/-- The same record maps, authority counters and accounting, and the same histories up
to their order. -/
structure Alike (r s : Registry) : Prop where
  unordered : r.unordered = s.unordered
  instance_history : r.instance_history.Perm s.instance_history
  endpoint_history : r.endpoint_history.Perm s.endpoint_history
  capability_history : r.capability_history.Perm s.capability_history

namespace Alike

@[refl] theorem refl (r : Registry) : r.Alike r := ⟨rfl, .refl _, .refl _, .refl _⟩

@[symm] theorem symm (h : r.Alike s) : s.Alike r := ⟨h.1.symm, h.2.symm, h.3.symm, h.4.symm⟩

@[trans] theorem trans (h₁ : r.Alike s) (h₂ : s.Alike t) : r.Alike t :=
  ⟨h₁.1.trans h₂.1, h₁.2.trans h₂.2, h₁.3.trans h₂.3, h₁.4.trans h₂.4⟩

theorem of_unordered (h : r.unordered = s.unordered) (hi : r.instance_history = s.instance_history)
    (he : r.endpoint_history = s.endpoint_history) (hc : r.capability_history = s.capability_history) : r.Alike s :=
  ⟨h, .of_eq hi, .of_eq he, .of_eq hc⟩

theorem reindex (r : Registry) : r.rebuild_indexes.Alike r := by
  obtain ⟨_, _, _, _, h⟩ := rebuild_indexes_writes r
  rw [h]
  exact of_unordered rfl rfl rfl rfl

end Alike

/-! ## Writes commute -/

/-- What a write does to the registry is told by the registry without its order. -/
theorem unordered_run (r : Registry) (w : Write) : (w.run r).unordered = (w.run r.unordered).unordered := by
  cases w with
  | reindex => exact (Alike.reindex r).unordered.trans (Alike.reindex r.unordered).unordered.symm
  | _ => rfl

theorem Alike.run (h : r.Alike s) (w : Write) : (w.run r).Alike (w.run s) := by
  have hunordered : (w.run r).unordered = (w.run s).unordered := by
    rw [unordered_run, h.unordered, ← unordered_run]
  cases w with
  | history_instance inst => exact ⟨hunordered, h.2.append_right _, h.3, h.4⟩
  | history_endpoint ep => exact ⟨hunordered, h.2, h.3.append_right _, h.4⟩
  | history_capability cap => exact ⟨hunordered, h.2, h.3, h.4.append_right _⟩
  | reindex => exact (reindex r).trans (h.trans (reindex s).symm)
  | _ => exact ⟨hunordered, h.2, h.3, h.4⟩

theorem Alike.written (h : r.Alike s) (ws : List Write) : (r.written ws).Alike (s.written ws) := by
  induction ws generalizing r s with
  | nil => exact h
  | cons w ws ih => exact ih (h.run w)

theorem raiseTo_comm {gen : GenTag} (c g g' : Gen gen) : raiseTo (raiseTo c g) g' = raiseTo (raiseTo c g') g := by
  have hmax : ∀ c g : Gen gen, raiseTo c g = max c g := fun c g => by
    unfold raiseTo
    split_ifs with h
    · exact (max_eq_right h.le).symm
    · exact (max_eq_left (not_lt.1 h)).symm
  simp only [hmax, max_right_comm]

theorem push_comm {α : Type} (l : List α) (x y : α) : ((l ++ [x]) ++ [y]).Perm ((l ++ [y]) ++ [x]) := by
  rw [List.append_assoc, List.append_assoc]
  exact (List.Perm.swap y x []).append_left l

end Registry

/-- The two writes store under one id. -/
def Write.Meets : Write → Write → Prop
  | .set_service id _, .set_service id' _ => id = id'
  | .set_instance id _, .set_instance id' _ => id = id'
  | .set_endpoint id _, .set_endpoint id' _ => id = id'
  | .set_capability id _, .set_capability id' _ => id = id'
  | _, _ => False

namespace Registry

variable {r s t u : Registry}

/-- Two writes commute unless they store under one id. -/
theorem run_comm (r : Registry) {w v : Write} (h : ¬ w.Meets v) : (v.run (w.run r)).Alike (w.run (v.run r)) := by
  by_cases hw : w = .reindex
  · subst hw
    exact ((Alike.reindex r).run v).trans (Alike.reindex _).symm
  by_cases hv : v = .reindex
  · subst hv
    exact (Alike.reindex _).trans ((Alike.reindex r).run w).symm
  cases w <;> cases v
  case set_service.set_service => exact .of_unordered (by simp only [Write.run, insert_comm _ h]) rfl rfl rfl
  case set_instance.set_instance => exact .of_unordered (by simp only [Write.run, insert_comm _ h]) rfl rfl rfl
  case set_endpoint.set_endpoint => exact .of_unordered (by simp only [Write.run, insert_comm _ h]) rfl rfl rfl
  case set_capability.set_capability => exact .of_unordered (by simp only [Write.run, insert_comm _ h]) rfl rfl rfl
  case history_instance.history_instance => exact ⟨rfl, push_comm .., .refl _, .refl _⟩
  case history_endpoint.history_endpoint => exact ⟨rfl, .refl _, push_comm .., .refl _⟩
  case history_capability.history_capability => exact ⟨rfl, .refl _, .refl _, push_comm ..⟩
  case raise_service.raise_service => exact .of_unordered (by simp only [Write.run, raiseTo_comm]) rfl rfl rfl
  case raise_endpoint.raise_endpoint => exact .of_unordered (by simp only [Write.run, raiseTo_comm]) rfl rfl rfl
  case raise_capability.raise_capability => exact .of_unordered (by simp only [Write.run, raiseTo_comm]) rfl rfl rfl
  case count.count c d => exact .of_unordered (by simp only [Write.run, Count.run_comm _ c d]) rfl rfl rfl
  all_goals first | exact absurd rfl hw | exact absurd rfl hv | exact .of_unordered rfl rfl rfl rfl

/-- Two lists of writes commute where no two of them store under one id. -/
theorem written_comm (r : Registry) {ws vs : List Write} (h : ∀ w ∈ ws, ∀ v ∈ vs, ¬ w.Meets v) :
    ((r.written ws).written vs).Alike ((r.written vs).written ws) := by
  induction ws generalizing r with
  | nil => rfl
  | cons w ws ih =>
    rw [List.forall_mem_cons] at h
    have hone : ∀ {r : Registry} {vs : List Write}, (∀ v ∈ vs, ¬ w.Meets v) →
        ((w.run r).written vs).Alike (w.run (r.written vs)) := by
      intro r vs hvs
      induction vs generalizing r with
      | nil => rfl
      | cons v vs ihv =>
        rw [List.forall_mem_cons] at hvs
        exact ((r.run_comm hvs.1).written vs).trans (ihv hvs.2)
    exact (ih _ h.2).trans ((hone h.1).written ws)

end Registry

end RuntimeRegistry
