import RuntimeRegistry.Shelves
import RuntimeRegistry.Workers
/-!
# What workers put on the shelves

Workers come and go, and a later one may take the place of an earlier one with the same
id. What is stored was put there by a worker that sent the line for it. The shelves of a
worker that serves hold what it sent, and no other worker touches them.
-/
open Lib

namespace RuntimeRegistry

namespace Worker

theorem id_inj {w w' : Worker} (h : w.id = w'.id) : w.workerId = w'.workerId := by
  have heq := congrArg UInt64.toNat h
  have hw := w.port_fits
  have hw' := w'.port_fits
  simp only [id, UInt64.toNat_ofNat'] at heq
  omega

theorem serviceId_inj {w w' : Worker} (h : w.serviceId = w'.serviceId) : w.workerId = w'.workerId := by
  have heq := congrArg UInt64.toNat h
  have hw := w.port_fits
  have hw' := w'.port_fits
  simp only [serviceId, UInt64.toNat_ofNat'] at heq
  omega

theorem id_ne_zero (w : Worker) : w.id ≠ 0 := by
  intro h
  have heq := congrArg UInt64.toNat h
  have hw := w.port_fits
  have hpos := w.id_pos
  simp only [id, UInt64.toNat_ofNat', UInt64.toNat_zero] at heq
  omega

/-- The endpoint of the worker, bound to its instance. -/
def bound (w : Worker) (id : ServiceInstanceId) : EndpointDescriptor := { w.endpoint with service_instance := id }

/-- The instance of the worker as it is stored. -/
def placed (w : Worker) (boot : WorkerBootId) (id : ServiceInstanceId) : ServiceInstance :=
  { w.inst with instance_id := id, worker := ⟨w.id⟩, boot := boot, lifecycle := Lifecycle.AVAILABLE }

end Worker

open Worker

/-! ## One worker -/

/-- The shelves hold what the worker at the boot sent in its first `stage` lines. -/
structure Placed (w : Worker) (boot : WorkerBootId) (stage : ℕ) (S : Shelves) : Prop where
  service : 3 ≤ stage → S.services ⟨w.serviceId⟩ = some (serviceOf w.serviceId)
  endpoint : 4 ≤ stage → stage < 6 → S.endpoints ⟨w.id⟩ = some w.endpoint
  capability : 5 ≤ stage → S.capabilities ⟨w.id⟩ = some (capabilityOf w.id)
  inst : stage = 6 → ∃ id, S.endpoints ⟨w.id⟩ = some (w.bound id) ∧ S.instances id = some (w.placed boot id) ∧
    ∀ k inst, S.instances k = some inst → inst.boot = boot → k = id

theorem placed_greeted (w : Worker) (boot : WorkerBootId) (S : Shelves) {stage : ℕ} (h : stage < 3) : Placed w boot stage S where
  service h' := absurd h' (by omega)
  endpoint h' := absurd h' (by omega)
  capability h' := absurd h' (by omega)
  inst h' := absurd h' (by omega)

/-- What the worker put there stays, if its own shelves and the instances of its boot do. -/
theorem Placed.keep {w : Worker} {boot : WorkerBootId} {stage : ℕ} {S T : Shelves} (h : Placed w boot stage S)
    (hs : T.services ⟨w.serviceId⟩ = S.services ⟨w.serviceId⟩) (he : T.endpoints ⟨w.id⟩ = S.endpoints ⟨w.id⟩)
    (hc : T.capabilities ⟨w.id⟩ = S.capabilities ⟨w.id⟩)
    (hi : ∀ k, S.instances k = some (w.placed boot k) → T.instances k = S.instances k)
    (hb : ∀ k inst, T.instances k = some inst → inst.boot = boot → S.instances k = some inst) : Placed w boot stage T where
  service h3 := hs.trans (h.service h3)
  endpoint h4 h6 := he.trans (h.endpoint h4 h6)
  capability h5 := hc.trans (h.capability h5)
  inst h6 := by
    obtain ⟨id, hep, hinst, honly⟩ := h.inst h6
    exact ⟨id, he.trans hep, (hi id hinst).trans hinst, fun k inst hk hboot => honly k inst (hb k inst hk hboot) hboot⟩

/-! ## All of them -/

/-- The workers that have greeted: one for each connection and each boot, and one that
serves is newer than the others with its id. -/
structure Roster (crew : ℕ → Worker) (granted : List Grant) (serving : Grant → Prop) : Prop where
  once : ∀ g ∈ granted, ∀ g' ∈ granted, g.conn = g'.conn → g = g'
  boots : ∀ g ∈ granted, ∀ g' ∈ granted, g.boot = g'.boot → g = g'
  order : ∀ g ∈ granted, serving g → ∀ g' ∈ granted, (crew g'.conn).workerId = (crew g.conn).workerId →
    g' = g ∨ (crew g'.conn).generation < (crew g.conn).generation

/-- Two workers that serve have two ids. -/
theorem Roster.apart {crew : ℕ → Worker} {granted : List Grant} {serving : Grant → Prop} (h : Roster crew granted serving)
    {g g' : Grant} (hg : g ∈ granted) (hserve : serving g) (hg' : g' ∈ granted) (hserve' : serving g') (hne : g' ≠ g) :
    (crew g'.conn).workerId ≠ (crew g.conn).workerId := by
  intro hid
  have hlt := (h.order g hg hserve g' hg' hid).resolve_left hne
  have hgt := (h.order g' hg' hserve' g hg hid.symm).resolve_left (Ne.symm hne)
  exact UInt64.lt_irrefl _ (UInt64.lt_trans hlt hgt)

/-- What is stored is what some worker sent, and what a serving worker sent is stored. -/
structure Stocked (crew : ℕ → Worker) (granted : List Grant) (serving : Grant → Prop) (sent : ℕ → ℕ) (next : UInt64)
    (S : Shelves) : Prop where
  runtimes : ∀ k rt, S.runtimes k = some rt → rt = runtimeOf k.value
  services : ∀ k svc, S.services k = some svc → svc = serviceOf k.value
  capabilities : ∀ k cap, S.capabilities k = some cap → cap = capabilityOf k.value
  endpoints : ∀ k ep, S.endpoints k = some ep → ∃ g ∈ granted, 4 ≤ sent g.conn ∧ k = ⟨(crew g.conn).id⟩ ∧
    ep.generation = ⟨(crew g.conn).generation⟩
  instances : ∀ k inst, S.instances k = some inst → (0 < k.value.toNat ∧ k.value.toNat < next.toNat) ∧
    ∃ g ∈ granted, sent g.conn = 6 ∧ inst.boot = g.boot ∧ inst.service_id = ⟨(crew g.conn).serviceId⟩ ∧
      inst.instance_generation = ⟨(crew g.conn).generation⟩
  placed : ∀ g ∈ granted, serving g → Placed (crew g.conn) g.boot (sent g.conn) S

/-- Lines are only added. -/
theorem le_update_succ (sent : ℕ → ℕ) (conn c : ℕ) : sent c ≤ Function.update sent conn (sent conn + 1) c := by
  by_cases hc : c = conn
  · rw [hc, Function.update_self]
    exact Nat.le_succ _
  · rw [Function.update_of_ne hc]

namespace Stocked

variable {crew : ℕ → Worker} {granted : List Grant} {serving serving' : Grant → Prop} {sent : ℕ → ℕ} {next : UInt64}
  {S T : Shelves} {g : Grant}

/-- A death takes what the worker of the boot put there, and nothing of the others. -/
theorem fall (h : Stocked crew granted serving sent next S) {boot : WorkerBootId} (hf : Registry.Fallen boot S T)
    (hserving : ∀ g ∈ granted, serving' g → serving g ∧ g.boot ≠ boot) :
    Stocked crew granted serving' sent next T where
  runtimes k rt hk := h.runtimes k rt (by rwa [hf.runtimes] at hk)
  services k svc hk := h.services k svc (by rwa [hf.services] at hk)
  capabilities k cap hk := h.capabilities k cap (by rwa [hf.capabilities] at hk)
  endpoints k ep hk := by
    rcases hf.endpoints k with hsame | ⟨old, _, hold, _, _, hnew⟩
    · exact h.endpoints k ep (hsame ▸ hk)
    · obtain ⟨g, hg, hsent, hid, hgen⟩ := h.endpoints k old hold
      rw [hnew, Option.some.injEq] at hk
      exact ⟨g, hg, hsent, hid, hk ▸ hgen⟩
  instances k inst hk := by
    rcases hf.instances k with hsame | ⟨old, hold, _, hnew⟩
    · exact h.instances k inst (hsame ▸ hk)
    · obtain ⟨hid, g, hg, hsent, hboot, hservice, hgen⟩ := h.instances k old hold
      rw [hnew, Option.some.injEq] at hk
      exact ⟨hid, g, hg, hsent, hk ▸ hboot, hk ▸ hservice, hk ▸ hgen⟩
  placed g hg hserve := by
    obtain ⟨hbefore, hne⟩ := hserving g hg hserve
    have hp := h.placed g hg hbefore
    have hother : ∀ k inst, T.instances k = some inst → inst.boot = g.boot → S.instances k = some inst := by
      intro k inst hk hboot
      rcases hf.instances k with hsame | ⟨old, _, hfallen, hnew⟩
      · exact hsame ▸ hk
      · rw [hnew, Option.some.injEq] at hk
        exact absurd (hboot.symm.trans (hk ▸ hfallen)) hne
    have hstays : ∀ ep : EndpointDescriptor, S.endpoints ⟨(crew g.conn).id⟩ = some ep →
        (∀ inst, S.instances ep.service_instance = some inst → inst.boot ≠ boot) →
        T.endpoints ⟨(crew g.conn).id⟩ = some ep := by
      intro ep hep hnot
      rcases hf.endpoints ⟨(crew g.conn).id⟩ with hsame | ⟨old, inst, hold, hinst, hfallen, _⟩
      · exact hsame.trans hep
      · obtain rfl : old = ep := Option.some.inj (hold.symm.trans hep)
        exact absurd hfallen (hnot inst hinst)
    refine ⟨fun h3 => ?_, fun h4 h6 => ?_, fun h5 => ?_, fun h6 => ?_⟩
    · rw [hf.services]
      exact hp.service h3
    · -- a free endpoint is bound to no instance, since no instance has id 0
      refine hstays _ (hp.endpoint h4 h6) fun inst hinst => ?_
      exact absurd (h.instances _ inst hinst).1.1 (lt_irrefl 0)
    · rw [hf.capabilities]
      exact hp.capability h5
    · obtain ⟨id, hep, hinst, honly⟩ := hp.inst h6
      have hmine : ∀ inst, S.instances id = some inst → inst.boot ≠ boot := by
        intro inst hi hb
        obtain rfl : (crew g.conn).placed g.boot id = inst := Option.some.inj (hinst.symm.trans hi)
        exact hne hb
      refine ⟨id, hstays _ hep hmine, ?_, fun k inst hk hboot => honly k inst (hother k inst hk hboot) hboot⟩
      rcases hf.instances id with hsame | ⟨old, hold, hfallen, _⟩
      · exact hsame.trans hinst
      · exact absurd hfallen (hmine old hold)

/-- Another connection moves on, and what is stored does not change. -/
theorem skip (h : Stocked crew granted serving sent next S) {conn : ℕ} (hsent : sent conn < 6)
    (hidle : ∀ g ∈ granted, serving g → g.conn ≠ conn) :
    Stocked crew granted serving (Function.update sent conn (sent conn + 1)) next S where
  runtimes := h.runtimes
  services := h.services
  capabilities := h.capabilities
  endpoints k ep hk := by
    obtain ⟨g, hg, hg4, hrest⟩ := h.endpoints k ep hk
    exact ⟨g, hg, hg4.trans (le_update_succ sent conn g.conn), hrest⟩
  instances k inst hk := by
    obtain ⟨hid, g, hg, hg6, hrest⟩ := h.instances k inst hk
    have hne : g.conn ≠ conn := by
      rintro rfl
      omega
    exact ⟨hid, g, hg, by rw [Function.update_of_ne hne, hg6], hrest⟩
  placed g hg hserve := by
    rw [Function.update_of_ne (hidle g hg hserve)]
    exact h.placed g hg hserve

/-- A worker greets. -/
theorem greet (h : Stocked crew granted serving sent next S) {conn : ℕ} (hsent : sent conn = 0)
    (hnew : ∀ g ∈ granted, g.conn ≠ conn) (g₀ : Grant) (hconn : g₀.conn = conn)
    (hserving : ∀ g ∈ granted, serving' g → serving g) :
    Stocked crew (g₀ :: granted) serving' (Function.update sent conn (sent conn + 1)) next S where
  runtimes := h.runtimes
  services := h.services
  capabilities := h.capabilities
  endpoints k ep hk := by
    obtain ⟨g, hg, hg4, hrest⟩ := h.endpoints k ep hk
    exact ⟨g, List.mem_cons_of_mem _ hg, hg4.trans (le_update_succ sent conn g.conn), hrest⟩
  instances k inst hk := by
    obtain ⟨hid, g, hg, hg6, hrest⟩ := h.instances k inst hk
    exact ⟨hid, g, List.mem_cons_of_mem _ hg, by rw [Function.update_of_ne (hnew g hg), hg6], hrest⟩
  placed g hg hserve := by
    rcases List.mem_cons.1 hg with rfl | hg
    · rw [hconn, Function.update_self, hsent]
      exact placed_greeted _ _ _ (by omega)
    · rw [Function.update_of_ne (hnew g hg)]
      exact h.placed g hg (hserving g hg hserve)

/-! ## A worker that serves -/

/-- A worker that serves moves on: what is new on the shelves is its own. -/
theorem advance (h : Stocked crew granted serving sent next S) (hr : Roster crew granted serving) (hg : g ∈ granted)
    (hserve : serving g) (hsent : sent g.conn < 6) {next' : UInt64} (hnext : next.toNat ≤ next'.toNat)
    (hruntimes : ∀ k rt, T.runtimes k = some rt → rt = runtimeOf k.value)
    (hservices : ∀ k svc, T.services k = some svc → svc = serviceOf k.value)
    (hcapabilities : ∀ k cap, T.capabilities k = some cap → cap = capabilityOf k.value)
    (hendpoints : ∀ k ep, T.endpoints k = some ep → S.endpoints k = some ep ∨
      3 ≤ sent g.conn ∧ k = ⟨(crew g.conn).id⟩ ∧ ep.generation = ⟨(crew g.conn).generation⟩)
    (hinstances : ∀ k inst, T.instances k = some inst →
      (∃ old, S.instances k = some old ∧ inst.boot = old.boot ∧ inst.service_id = old.service_id ∧
        inst.instance_generation = old.instance_generation) ∨
      (0 < k.value.toNat ∧ k.value.toNat < next'.toNat) ∧ sent g.conn = 5 ∧ inst.boot = g.boot ∧
        inst.service_id = ⟨(crew g.conn).serviceId⟩ ∧ inst.instance_generation = ⟨(crew g.conn).generation⟩)
    (hothers : ∀ g' ∈ granted, (crew g'.conn).workerId ≠ (crew g.conn).workerId → g'.boot ≠ g.boot →
      ∀ stage, Placed (crew g'.conn) g'.boot stage S → Placed (crew g'.conn) g'.boot stage T)
    (hmine : Placed (crew g.conn) g.boot (sent g.conn + 1) T) :
    Stocked crew granted serving (Function.update sent g.conn (sent g.conn + 1)) next' T where
  runtimes := hruntimes
  services := hservices
  capabilities := hcapabilities
  endpoints k ep hk := by
    rcases hendpoints k ep hk with hold | ⟨h3, hid, hgen⟩
    · obtain ⟨g', hg', h4, hrest⟩ := h.endpoints k ep hold
      exact ⟨g', hg', h4.trans (le_update_succ sent g.conn g'.conn), hrest⟩
    · exact ⟨g, hg, by rw [Function.update_self]; omega, hid, hgen⟩
  instances k inst hk := by
    rcases hinstances k inst hk with ⟨old, hold, hboot, hservice, hgen⟩ | ⟨hid, h5, hrest⟩
    · obtain ⟨hid, g', hg', h6, hboot', hservice', hgen'⟩ := h.instances k old hold
      have hne : g'.conn ≠ g.conn := fun hsame => by
        rw [hsame] at h6
        omega
      exact ⟨⟨hid.1, hid.2.trans_le hnext⟩, g', hg', by rw [Function.update_of_ne hne, h6], hboot.trans hboot',
        hservice.trans hservice', hgen.trans hgen'⟩
    · exact ⟨hid, g, hg, by rw [Function.update_self, h5], hrest⟩
  placed g' hg' hserve' := by
    by_cases hsame : g' = g
    · rw [hsame, Function.update_self]
      exact hmine
    · have hconn : g'.conn ≠ g.conn := fun hc => hsame (hr.once g' hg' g hg hc)
      rw [Function.update_of_ne hconn]
      exact hothers g' hg' (hr.apart hg hserve hg' hserve' hsame) (fun hb => hsame (hr.boots g' hg' g hg hb)) _
        (h.placed g' hg' hserve')

/-- What is stored after one record was put there: the record, or what was stored. -/
theorem update_some {K V : Type} [DecidableEq K] {f : K → Option V} {k₀ k : K} {v₀ v : V}
    (hk : Function.update f k₀ (some v₀) k = some v) : k = k₀ ∧ v = v₀ ∨ k ≠ k₀ ∧ f k = some v := by
  by_cases hk₀ : k = k₀
  · subst hk₀
    rw [Function.update_self, Option.some.injEq] at hk
    exact .inl ⟨rfl, hk.symm⟩
  · rw [Function.update_of_ne hk₀] at hk
    exact .inr ⟨hk₀, hk⟩

theorem forall_update {K V : Type} [DecidableEq K] {f : K → Option V} {P : K → V → Prop} (h : ∀ k v, f k = some v → P k v)
    {k₀ : K} {v₀ : V} (h₀ : P k₀ v₀) (k : K) (v : V) (hk : Function.update f k₀ (some v₀) k = some v) : P k v := by
  rcases update_some hk with ⟨rfl, rfl⟩ | ⟨_, hk⟩
  · exact h₀
  · exact h k v hk

theorem put_runtime (h : Stocked crew granted serving sent next S) (hr : Roster crew granted serving) (hg : g ∈ granted)
    (hserve : serving g) (hsent : sent g.conn = 1) (hT : T = { S with
      runtimes := Function.update S.runtimes ⟨(crew g.conn).id⟩ (some (runtimeOf (crew g.conn).id)) }) :
    Stocked crew granted serving (Function.update sent g.conn (sent g.conn + 1)) next T := by
  subst hT
  refine h.advance hr hg hserve (by omega) le_rfl (forall_update h.runtimes rfl) h.services h.capabilities
    (fun k ep hk => .inl hk) (fun k inst hk => .inl ⟨inst, hk, rfl, rfl, rfl⟩) (fun g' _ _ _ stage hp => ?_) ?_
  · exact hp.keep rfl rfl rfl (fun _ _ => rfl) fun _ _ hk _ => hk
  · rw [hsent]
    exact placed_greeted _ _ _ (by omega)

theorem put_service (h : Stocked crew granted serving sent next S) (hr : Roster crew granted serving) (hg : g ∈ granted)
    (hserve : serving g) (hsent : sent g.conn = 2) (hT : T = { S with
      services := Function.update S.services ⟨(crew g.conn).serviceId⟩ (some (serviceOf (crew g.conn).serviceId)) }) :
    Stocked crew granted serving (Function.update sent g.conn (sent g.conn + 1)) next T := by
  subst hT
  refine h.advance hr hg hserve (by omega) le_rfl h.runtimes (forall_update h.services rfl) h.capabilities
    (fun k ep hk => .inl hk) (fun k inst hk => .inl ⟨inst, hk, rfl, rfl, rfl⟩) (fun g' _ hid _ stage hp => ?_) ?_
  · refine hp.keep (Function.update_of_ne (fun heq => ?_) _ _) rfl rfl (fun _ _ => rfl) fun _ _ hk _ => hk
    exact hid (serviceId_inj (congrArg Id.value heq))
  · rw [hsent]
    exact ⟨fun _ => Function.update_self _ _ _, fun h4 => absurd h4 (by omega), fun h5 => absurd h5 (by omega),
      fun h6 => absurd h6 (by omega)⟩

theorem put_endpoint (h : Stocked crew granted serving sent next S) (hr : Roster crew granted serving) (hg : g ∈ granted)
    (hserve : serving g) (hsent : sent g.conn = 3) (hT : T = { S with
      endpoints := Function.update S.endpoints ⟨(crew g.conn).id⟩ (some (crew g.conn).endpoint) }) :
    Stocked crew granted serving (Function.update sent g.conn (sent g.conn + 1)) next T := by
  subst hT
  refine h.advance hr hg hserve (by omega) le_rfl h.runtimes h.services h.capabilities
    (forall_update (fun k ep hk => .inl hk) (.inr ⟨hsent.ge, rfl, rfl⟩)) (fun k inst hk => .inl ⟨inst, hk, rfl, rfl, rfl⟩)
    (fun g' _ hid _ stage hp => ?_) ?_
  · refine hp.keep rfl (Function.update_of_ne (fun heq => ?_) _ _) rfl (fun _ _ => rfl) fun _ _ hk _ => hk
    exact hid (id_inj (congrArg Id.value heq))
  · have hp := h.placed g hg hserve
    rw [hsent] at hp ⊢
    exact ⟨fun _ => hp.service (by omega), fun _ _ => Function.update_self _ _ _, fun h5 => absurd h5 (by omega),
      fun h6 => absurd h6 (by omega)⟩

theorem put_capability (h : Stocked crew granted serving sent next S) (hr : Roster crew granted serving) (hg : g ∈ granted)
    (hserve : serving g) (hsent : sent g.conn = 4) (hT : T = { S with
      capabilities := Function.update S.capabilities ⟨(crew g.conn).id⟩ (some (capabilityOf (crew g.conn).id)) }) :
    Stocked crew granted serving (Function.update sent g.conn (sent g.conn + 1)) next T := by
  subst hT
  refine h.advance hr hg hserve (by omega) le_rfl h.runtimes h.services (forall_update h.capabilities rfl)
    (fun k ep hk => .inl hk) (fun k inst hk => .inl ⟨inst, hk, rfl, rfl, rfl⟩) (fun g' _ hid _ stage hp => ?_) ?_
  · refine hp.keep rfl rfl (Function.update_of_ne (fun heq => ?_) _ _) (fun _ _ => rfl) fun _ _ hk _ => hk
    exact hid (id_inj (congrArg Id.value heq))
  · have hp := h.placed g hg hserve
    rw [hsent] at hp ⊢
    exact ⟨fun _ => hp.service (by omega), fun _ _ => hp.endpoint (by omega) (by omega), fun _ => Function.update_self _ _ _,
      fun h6 => absurd h6 (by omega)⟩

/-- The instance of the worker is bound to its endpoint and stored under the next id, and
the instance of an earlier worker with the same id is superseded. -/
theorem put_instance (h : Stocked crew granted serving sent next S) (hr : Roster crew granted serving) (hg : g ∈ granted)
    (hserve : serving g) (hsent : sent g.conn = 5) (hpos : 0 < next.toNat) (hroom : next.toNat + 1 < 2 ^ 64)
    {stored : ServiceInstanceId → Option ServiceInstance}
    (hstored : ∀ k, Registry.Succeeds ⟨(crew g.conn).serviceId⟩ (S.instances k) (stored k))
    (hT : T = { S with
      endpoints := Function.update S.endpoints ⟨(crew g.conn).id⟩ (some ((crew g.conn).bound ⟨next⟩))
      instances := Function.update stored ⟨next⟩ (some ((crew g.conn).placed g.boot ⟨next⟩)) }) :
    Stocked crew granted serving (Function.update sent g.conn (sent g.conn + 1)) (next + 1) T := by
  subst hT
  have hnext : (next + 1).toNat = next.toNat + 1 := by
    rw [UInt64.toNat_add, UInt64.toNat_one, Nat.mod_eq_of_lt hroom]
  have hfresh : ∀ k inst, S.instances k = some inst → k ≠ ⟨next⟩ := by
    rintro k inst hk rfl
    exact absurd (h.instances _ inst hk).1.2 (lt_irrefl _)
  refine h.advance hr hg hserve (by omega) (by omega) h.runtimes h.services h.capabilities
    (forall_update (fun k ep hk => .inl hk) (.inr ⟨by omega, rfl, rfl⟩)) (fun k inst hk => ?_)
    (fun g' hg' hid hboot stage hp => ?_) ?_
  · rcases update_some hk with ⟨rfl, rfl⟩ | ⟨_, hk⟩
    · exact .inr ⟨⟨hpos, hnext ▸ Nat.lt_succ_self _⟩, hsent, rfl, rfl, rfl⟩
    · rcases hstored k with hsame | ⟨current, hcurrent, _, hnew⟩
      · exact .inl ⟨inst, hsame ▸ hk, rfl, rfl, rfl⟩
      · obtain rfl := Option.some.inj (hnew.symm.trans hk)
        exact .inl ⟨current, hcurrent, rfl, rfl, rfl⟩
  · -- the instances of another worker that serves are of its own service
    have hservice : ∀ k inst, S.instances k = some inst → inst.boot = g'.boot → inst.service_id ≠ ⟨(crew g.conn).serviceId⟩ := by
      intro k inst hk hb
      obtain ⟨_, g'', hg'', _, hboot'', hservice'', _⟩ := h.instances k inst hk
      obtain rfl : g'' = g' := hr.boots _ hg'' _ hg' (hboot''.symm.trans hb)
      rw [hservice'']
      exact fun heq => hid (serviceId_inj (congrArg Id.value heq))
    have hkept : ∀ k inst, S.instances k = some inst → inst.boot = g'.boot → stored k = some inst := by
      intro k inst hk hb
      rcases hstored k with hsame | ⟨current, hcurrent, hsuper, _⟩
      · exact hsame.trans hk
      · obtain rfl := Option.some.inj (hcurrent.symm.trans hk)
        exact absurd hsuper (hservice k current hk hb)
    refine hp.keep rfl (Function.update_of_ne (fun heq => hid (id_inj (congrArg Id.value heq))) _ _) rfl (fun k hk => ?_)
      fun k inst hk hb => ?_
    · exact (Function.update_of_ne (hfresh k _ hk) _ _).trans ((hkept k _ hk rfl).trans hk.symm)
    · rcases update_some hk with ⟨rfl, rfl⟩ | ⟨_, hk⟩
      · exact absurd hb.symm hboot
      · rcases hstored k with hsame | ⟨current, hcurrent, hsuper, hnew⟩
        · exact hsame ▸ hk
        · obtain rfl := Option.some.inj (hnew.symm.trans hk)
          exact absurd hsuper (hservice k current hcurrent hb)
  · have hp := h.placed g hg hserve
    rw [hsent] at hp ⊢
    refine ⟨fun _ => hp.service (by omega), fun _ h6 => absurd h6 (by omega), fun _ => hp.capability (by omega), fun _ => ?_⟩
    refine ⟨⟨next⟩, Function.update_self _ _ _, Function.update_self _ _ _, fun k inst hk hb => ?_⟩
    -- an earlier instance of the boot would have been sent in a line that was not sent yet
    by_contra hk₀
    replace hk : stored k = some inst := (Function.update_of_ne hk₀ _ _).symm.trans hk
    have hold : ∃ old, S.instances k = some old ∧ old.boot = g.boot := by
      rcases hstored k with hsame | ⟨current, hcurrent, _, hnew⟩
      · exact ⟨inst, hsame ▸ hk, hb⟩
      · obtain rfl := Option.some.inj (hnew.symm.trans hk)
        exact ⟨current, hcurrent, hb⟩
    obtain ⟨old, hold, hboot⟩ := hold
    obtain ⟨_, g', hg', h6, hboot', _⟩ := h.instances k old hold
    obtain rfl : g' = g := hr.boots _ hg' _ hg (hboot'.symm.trans hboot)
    omega

end Stocked

end RuntimeRegistry
