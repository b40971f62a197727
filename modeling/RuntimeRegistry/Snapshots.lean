import RuntimeRegistry.Bookkeeping
/-!
# Runs with recoveries

A deployment is a registry with the images that were taken of it. An image is
loaded at any later point, into the registry or into a new one that takes its
place. `load_from` puts the epoch and `next_boot` back to those of the image, so
the boots of an epoch stay distinct only if none was issued behind its back.
-/
open Lib

namespace RuntimeRegistry

/-! ## Deployments -/

/-- A registry, the images that `serialize` returned, and the boots that
`adopt_worker` returned, each with the epoch it was issued in; the latest first. -/
structure Deployment where
  registry : Registry
  images : List (List UInt8) := []
  issued : List (CoordinatorEpoch × WorkerBootId) := []

/-- The image that the call returned. -/
def Event.images (e : Event) : List (List UInt8) :=
  match e.op with
  | .serialize => match e.reply with
    | .ok (.image data) => [data]
    | _ => []
  | _ => []

/-- The boot that the call returned, with the epoch of the call. -/
def Event.issued (e : Event) (epoch : CoordinatorEpoch) : List (CoordinatorEpoch × WorkerBootId) :=
  match e.op with
  | .adopt_worker _ => match e.reply with
    | .ok (.boot b) => [(epoch, b)]
    | _ => []
  | _ => []

namespace Deployment

def start : Deployment where
  registry := Registry.fresh

/-- A call of the registry, or of a new one that replaces it. -/
structure Event where
  call : RuntimeRegistry.Event
  replaces : Bool := false

/-- The registry that the call is made on. -/
def host (d : Deployment) (e : Event) : Registry := if e.replaces then Registry.fresh else d.registry

/-- A call of a deployment: what is loaded was taken before, and only a load
replaces the registry. -/
structure Step (d : Deployment) (e : Event) (d' : Deployment) : Prop where
  call : RuntimeRegistry.Step (d.host e) e.call d'.registry
  taken : ∀ data, e.call.op = .load_from data → data ∈ d.images
  replaces : e.replaces = true → ∃ data, e.call.op = .load_from data
  images : d'.images = e.call.images ++ d.images
  issued : d'.issued = e.call.issued d.registry.authority.epoch ++ d.issued

/-- No boot above `next` was issued in the epoch or in a later one. -/
def Covers (d : Deployment) (epoch : CoordinatorEpoch) (next : UInt64) : Prop :=
  ∀ p ∈ d.issued, epoch ≤ p.1 → p.2.value ≤ next

/-- Wherever a call sets the counters to, they cover what was issued. A call of
`begin_coordinator_epoch` always does, unless the epoch wraps. -/
structure Safe (d : Deployment) (e : Event) : Prop where
  restored : ∀ data, e.call.op = .load_from data → Registry.Admitted data → Registry.Complete data →
    d.Covers (Registry.headerOf (Registry.sealedContent data)).1.authority.epoch
      (Registry.headerOf (Registry.sealedContent data)).1.next_boot
  refused : ∀ data, e.call.op = .load_from data → ¬ (Registry.Admitted data ∧ Registry.Complete data) →
    d.Covers (d.host e).authority.epoch (d.host e).next_boot
  epoch : e.call.op = .begin_coordinator_epoch →
    d.Covers d.registry.authority.epoch.succ d.registry.next_boot

end Deployment

/-! ## What a call returns -/

theorem Step.issued {r t : Registry} {e : Event} (h : Step r e t) (epoch : CoordinatorEpoch) :
    e.issued epoch = if e.op.adopts then [(epoch, ⟨r.next_boot + 1⟩)] else [] := by
  have hreply := congrArg Prod.fst h.2
  unfold Event.issued
  rcases hop : e.op <;> rw [hop] at hreply <;> try rfl
  simp only [Registry.exec] at hreply
  rw [← hreply]
  rfl

theorem Step.images {r t : Registry} {e : Event} (h : Step r e t) : ∀ data ∈ e.images, data = r.serialize := by
  have hreply := congrArg Prod.fst h.2
  unfold Event.images
  rcases hop : e.op <;> rw [hop] at hreply <;> try simp
  simp only [Registry.exec] at hreply
  rw [← hreply]
  simp

namespace Registry
variable {r t : Registry}

theorem sealedContent_serialize (r : Registry) : sealedContent r.serialize = r.put_content := by
  simp [sealedContent, serialize, withTrailer, put_u32]

/-- The counters stand at the same place in every image, whatever its records. -/
theorem headerOf_serialize (r : Registry) : (headerOf (sealedContent r.serialize)).1.authority = counters r.authority ∧
    (headerOf (sealedContent r.serialize)).1.next_boot = r.next_boot := by
  have h₁ := reads_u32 kPersistMagic [] (put_u8 kPersistVersion ++ (put_authority r.authority ++
    (put_u64 r.next_boot ++ (put_u64 r.next_id ++ r.put_counts))) ++ r.put_records)
  have h₂ := reads_u8 kPersistVersion (put_u32 kPersistMagic) (put_authority r.authority ++
    (put_u64 r.next_boot ++ (put_u64 r.next_id ++ r.put_counts)) ++ r.put_records)
  have h₃ := reads_authority r.authority (put_u32 kPersistMagic ++ put_u8 kPersistVersion)
    (put_u64 r.next_boot ++ (put_u64 r.next_id ++ r.put_counts) ++ r.put_records)
  have h₄ := reads_u64 r.next_boot (put_u32 kPersistMagic ++ put_u8 kPersistVersion ++ put_authority r.authority)
    (put_u64 r.next_id ++ r.put_counts ++ r.put_records)
  simp only [List.nil_append, List.length_nil, Nat.zero_add, List.append_assoc, List.length_append] at h₁ h₂ h₃ h₄
  rw [sealedContent_serialize, put_content_eq]
  unfold headerOf put_prefix
  simp only [List.append_assoc]
  rw [h₁, h₂]
  simp only [get_header, Lib.Reader.bind_run, Lib.Reader.pure_run]
  rw [h₃, Nat.add_assoc]
  exact ⟨rfl, congrArg Prod.fst h₄⟩

/-- A load leaves the counters of the image if it reads it to its end, else its own. -/
theorem load_from_counters (r : Registry) (data : List UInt8) :
    (Admitted data ∧ Complete data ∧
        (r.load_from data).2.authority = (headerOf (sealedContent data)).1.authority ∧
        (r.load_from data).2.next_boot = (headerOf (sealedContent data)).1.next_boot) ∨
      (¬ (Admitted data ∧ Complete data) ∧ (r.load_from data).2.authority = r.authority ∧
        (r.load_from data).2.next_boot = r.next_boot) := by
  generalize hh : (headerOf (sealedContent data)).1 = header
  have hframe : ∀ s : Registry, (s.withRecords r).authority = r.authority ∧ (s.withRecords r).next_boot = r.next_boot :=
    fun _ => ⟨rfl, rfl⟩
  refine load_from_rule (P := fun t => (Admitted data ∧ Complete data ∧ t.authority = header.authority ∧
    t.next_boot = header.next_boot) ∨
    (¬ (Admitted data ∧ Complete data) ∧ t.authority = r.authority ∧ t.next_boot = r.next_boot)) ?_ ?_ ?_
  · exact fun h => .inr ⟨fun ha => h ha.1, rfl, rfl⟩
  · exact fun _ h => .inr ⟨fun ha => h ha.2, hframe _⟩
  · intro ha hc
    rw [hh]
    exact .inl ⟨ha, hc, restore_authority _ _, restore_next_boot _ _⟩

/-- Only a load and the beginning of an epoch change the epoch. -/
theorem exec_epoch (r : Registry) (scan : List ServiceInstanceId) {op : Op} (himage : op.class ≠ .image)
    (hepoch : op ≠ .begin_coordinator_epoch) : (r.exec scan op).2.authority.epoch = r.authority.epoch := by
  by_cases hc : op.class = .incarnation
  · have hrevoke : ∀ (s : Registry) boot, (s.revoke_boot_internal boot).authority.epoch = s.authority.epoch := by
      intro s boot
      rw [revoke_authority]
      split_ifs <;> rfl
    cases op <;> simp only [Op.class, reduceCtorEq] at hc
    case begin_coordinator_epoch => exact absurd rfl hepoch
    case adopt_worker worker =>
      exact adopt_worker_rule (P := fun t => t.authority.epoch = r.authority.epoch) (fun _ => rfl) fun _ _ _ => hrevoke _ _
    case mark_worker_died boot => exact hrevoke r boot
  · exact (r.exec_incarnations scan op hc himage).1.epoch

theorem fresh_live (b : WorkerBootId) : fresh.authority.is_boot_live b = false := by
  have h : fresh.authority.live_boots = ∅ := rfl
  simp [RegistryAuthority.is_boot_live, h]

end Registry

namespace Deployment
variable {d d' : Deployment} {e : Event}

/-! ## The ledger -/

def ledger (d : Deployment) : Ledger ℕ ℕ where
  epoch := d.registry.authority.epoch.value.toNat
  next := d.registry.next_boot.toNat
  issued := d.issued.map fun p => (p.1.value.toNat, p.2.value.toNat)

theorem Covers.fresh (h : d.Covers d'.registry.authority.epoch d'.registry.next_boot) (hi : d'.issued = d.issued) :
    d'.ledger.Fresh := by
  intro p hp hle
  obtain ⟨q, hq, rfl⟩ := List.mem_map.1 hp
  rw [hi] at hq
  exact h q hq hle

/-- A call other than a load is made on the registry in place. -/
theorem Step.host_eq (h : d.Step e d') (hload : e.call.noLoad) : d.host e = d.registry := by
  unfold host
  split_ifs with hr
  · obtain ⟨data, hop⟩ := h.replaces hr
    exact absurd hop (hload data)
  · rfl

/-- A call that issues nothing. -/
theorem Step.issued_nothing (h : d.Step e d') (hadopts : e.call.op.adopts = false) : d'.issued = d.issued := by
  rw [h.issued, h.call.issued, hadopts]
  rfl

/-- A load leaves the counters that the condition speaks of. -/
theorem Step.load_covers (h : d.Step e d') (hsafe : d.Safe e) (hload : ¬ e.call.noLoad) :
    d.Covers d'.registry.authority.epoch d'.registry.next_boot ∧ e.call.op.adopts = false := by
  obtain ⟨data, hop⟩ : ∃ data, e.call.op = .load_from data := by simpa [RuntimeRegistry.Event.noLoad] using hload
  have hreg : d'.registry = ((d.host e).load_from data).2 := by rw [h.call.state, hop]; rfl
  refine ⟨?_, by rw [hop]; rfl⟩
  rw [hreg]
  rcases (d.host e).load_from_counters data with ⟨ha, hc, hauth, hnext⟩ | ⟨hnot, hauth, hnext⟩
  · rw [hauth, hnext]
    exact hsafe.restored data hop ha hc
  · rw [hauth, hnext]
    exact hsafe.refused data hop hnot

/-- Each call is a step of the ledger. -/
theorem Step.ledger (h : d.Step e d') (hsafe : d.Safe e) (hfresh : d.ledger.Fresh)
    (hroom : e.call.op.adopts = true → d.registry.next_boot.toNat + 1 < 2 ^ 64) : Ledger.Step d.ledger () d'.ledger := by
  by_cases hload : e.call.noLoad
  swap
  · obtain ⟨hcovers, hadopts⟩ := h.load_covers hsafe hload
    have hissued := h.issued_nothing hadopts
    exact .settle (congrArg (List.map _) hissued) (hcovers.fresh hissued)
  have hcall := h.call
  rw [h.host_eq hload] at hcall
  have hnext := (d.registry.exec_boots e.call.scan e.call.op hload.class_ne).1
  rw [← hcall.state] at hnext
  by_cases hop : e.call.op = .begin_coordinator_epoch
  · have hissued := h.issued_nothing (by rw [hop]; rfl)
    have hepoch : d'.registry.authority.epoch = d.registry.authority.epoch.succ := by rw [hcall.state, hop]; rfl
    have hnext : d'.registry.next_boot = d.registry.next_boot := by rw [hcall.state, hop]; rfl
    have hcovers := hsafe.epoch hop
    rw [← hepoch, ← hnext] at hcovers
    exact .settle (congrArg (List.map _) hissued) (hcovers.fresh hissued)
  have hepoch := d.registry.exec_epoch e.call.scan hload.class_ne hop
  rw [← hcall.state] at hepoch
  by_cases hadopts : e.call.op.adopts = true
  · -- the boot that is issued is the one the counter moves to
    have hissued := h.issued
    rw [h.call.issued, h.host_eq hload, if_pos hadopts] at hissued
    rw [if_pos hadopts] at hnext
    have hnat : (d.registry.next_boot + 1).toNat = d.registry.next_boot.toNat + 1 := by
      rw [UInt64.toNat_add, UInt64.toNat_one, Nat.mod_eq_of_lt (hroom hadopts)]
    have hstep := Ledger.Step.issue d.ledger (d.registry.next_boot.toNat + 1) (Nat.lt_succ_self _)
    simpa [Deployment.ledger, hissued, hnext, hepoch, hnat] using hstep
  · have hissued := h.issued_nothing (Bool.eq_false_iff.2 hadopts)
    rw [if_neg hadopts] at hnext
    have hsame : d'.ledger = d.ledger := by rw [Deployment.ledger, hepoch, hnext, hissued]; rfl
    rw [hsame]
    exact .settle rfl hfresh

/-! ## The counter -/

/-- No counter, in place or in an image, has been moved by more than the adoptions. -/
structure Counted (d : Deployment) : Prop where
  registry : d.registry.next_boot.toNat ≤ 100 + d.issued.length
  images : ∀ data ∈ d.images,
    (Registry.headerOf (Registry.sealedContent data)).1.next_boot.toNat ≤ 100 + d.issued.length

theorem fresh_next_boot : Registry.fresh.next_boot = 100 := by decide +kernel

theorem Counted.step (h : d.Counted) (hs : d.Step e d') : d'.Counted ∧ d.issued.length ≤ d'.issued.length := by
  have hhost : (d.host e).next_boot.toNat ≤ 100 + d.issued.length := by
    unfold host
    split_ifs
    · rw [fresh_next_boot]
      exact Nat.le_add_right _ _
    · exact h.registry
  have hissued := hs.issued
  rw [hs.call.issued] at hissued
  have hlen : d'.issued.length = (if e.call.op.adopts then 1 else 0) + d.issued.length := by
    rw [hissued]
    split_ifs <;> simp [Nat.add_comm]
  refine ⟨⟨?_, fun data hdata => ?_⟩, by omega⟩
  · by_cases hload : e.call.noLoad
    · have hnext := ((d.host e).exec_boots e.call.scan e.call.op hload.class_ne).1
      rw [← hs.call.state] at hnext
      rw [hnext, hlen]
      split_ifs
      · have hle : ((d.host e).next_boot + 1).toNat ≤ (d.host e).next_boot.toNat + 1 := by
          rw [UInt64.toNat_add, UInt64.toNat_one]
          exact Nat.mod_le _ _
        omega
      · omega
    · obtain ⟨data, hop⟩ : ∃ data, e.call.op = .load_from data := by simpa [RuntimeRegistry.Event.noLoad] using hload
      have hreg : d'.registry = ((d.host e).load_from data).2 := by rw [hs.call.state, hop]; rfl
      rw [hreg]
      rcases (d.host e).load_from_counters data with ⟨_, _, _, hnext⟩ | ⟨_, _, hnext⟩
      · have himage := h.images data (hs.taken data hop)
        rw [hnext]
        omega
      · rw [hnext]
        omega
  · rw [hs.images] at hdata
    rcases List.mem_append.1 hdata with hdata | hdata
    · rw [hs.call.images data hdata, (Registry.headerOf_serialize _).2]
      omega
    · have himage := h.images data hdata
      omega

/-! ## Every run -/

/-- The incarnations whose envelopes are accepted were issued in the epoch. -/
def Held (d : Deployment) : Prop :=
  ∀ b, d.registry.authority.is_boot_live b = true → (d.registry.authority.epoch, b) ∈ d.issued

theorem Held.step (h : d.Held) (hs : d.Step e d') : d'.Held := by
  intro b hb
  by_cases hload : e.call.noLoad
  swap
  · obtain ⟨data, hop⟩ : ∃ data, e.call.op = .load_from data := by simpa [RuntimeRegistry.Event.noLoad] using hload
    have hreg : d'.registry = ((d.host e).load_from data).2 := by rw [hs.call.state, hop]; rfl
    rw [hreg] at hb ⊢
    rcases (d.host e).load_from_counters data with ⟨_, _, hauth, _⟩ | ⟨_, hauth, _⟩
    · rw [hauth, RegistryAuthority.is_boot_live, (Registry.header_incarnations _).1] at hb
      simp at hb
    · rw [hauth] at hb ⊢
      rw [hs.issued_nothing (by rw [hop]; rfl)]
      unfold host at hb ⊢
      split_ifs at hb ⊢
      · simp [Registry.fresh_live] at hb
      · exact h b hb
  have hcall := hs.call
  rw [hs.host_eq hload] at hcall
  by_cases hop : e.call.op = .begin_coordinator_epoch
  · have hlive : d'.registry.authority.live_boots = ∅ := by rw [hcall.state, hop]; rfl
    rw [RegistryAuthority.is_boot_live, hlive] at hb
    simp at hb
  have hepoch := d.registry.exec_epoch e.call.scan hload.class_ne hop
  have hlive := (d.registry.exec_boots e.call.scan e.call.op hload.class_ne).2 b
  rw [← hcall.state] at hepoch hlive
  rw [hepoch, hs.issued, hs.call.issued, hs.host_eq hload]
  rcases hlive hb with hb | ⟨hadopts, rfl⟩
  · exact List.mem_append_right _ (h b hb)
  · rw [if_pos hadopts]
    exact List.mem_append_left _ (List.mem_singleton.2 rfl)

/-- As long as fewer than 2^64 - 100 boots were issued, they are fresh and distinct. -/
structure Sound (d : Deployment) : Prop where
  counted : d.Counted
  held : d.Held
  fresh : d.issued.length < 2 ^ 64 - 100 → d.ledger.Fresh ∧ d.ledger.issued.Nodup

theorem start_sound : start.Sound where
  counted := ⟨by decide +kernel, by simp [start]⟩
  held b hb := by simp [start, Registry.fresh_live] at hb
  fresh _ := ⟨fun _ hp => by simp [Deployment.ledger, start] at hp, .nil⟩

theorem Sound.step (h : d.Sound) (hs : Guarded Step Safe d e d') : d'.Sound := by
  obtain ⟨hcounted, hle⟩ := h.counted.step hs.1
  refine ⟨hcounted, h.held.step hs.1, fun hroom => ?_⟩
  obtain ⟨hfresh, hnodup⟩ := h.fresh (hle.trans_lt hroom)
  have hstep := hs.1.ledger hs.2 hfresh fun hadopts => by
    have hissued := congrArg List.length hs.1.issued
    rw [hs.1.call.issued, if_pos hadopts, List.length_append, List.length_singleton] at hissued
    have hcount := h.counted.registry
    omega
  exact ⟨hstep.fresh hfresh, hstep.nodup hfresh hnodup⟩

/-- In every run with recoveries that put no counter behind what was issued, no two
adoptions return one boot under one epoch, and an envelope that was accepted
names no boot that is adopted later. -/
theorem boots_never_reissued {d₁ d₂ : Deployment} {es₁ es₂ : List Event}
    (h₁ : Run (Guarded Step Safe) start es₁ d₁) (h₂ : Run (Guarded Step Safe) d₁ es₂ d₂)
    (hroom : d₂.issued.length < 2 ^ 64 - 100) :
    d₂.issued.Nodup ∧ ∃ since, d₂.issued = since ++ d₁.issued ∧
      ∀ env, d₁.registry.Accepts env → (env.epoch, env.boot) ∉ since := by
  have hsound₁ := h₁.inv Sound (fun _ _ _ hd hs => hd.step hs) start_sound
  have hsound₂ := h₂.inv Sound (fun _ _ _ hd hs => hd.step hs) hsound₁
  have hnodup : d₂.issued.Nodup := (hsound₂.fresh hroom).2.of_map _
  obtain ⟨since, hsince⟩ : ∃ since, d₂.issued = since ++ d₁.issued := by
    refine h₂.rel (fun d d' => ∃ since, d'.issued = since ++ d.issued) (fun d => ⟨[], rfl⟩) ?_ ?_
    · rintro s t u ⟨as, has⟩ ⟨bs, hbs⟩
      exact ⟨bs ++ as, by rw [hbs, has, List.append_assoc]⟩
    · exact fun _ _ _ hs => ⟨_, hs.1.issued⟩
  refine ⟨hnodup, since, hsince, fun env ha hmem => ?_⟩
  rw [hsince] at hnodup
  have hold : (env.epoch, env.boot) ∈ d₁.issued := ha.1 ▸ hsound₁.held env.boot ha.2
  exact (List.nodup_append.1 hnodup).2.2 _ hmem _ hold rfl

/-! ## Scripts -/

/-- The deployment after a call that loads nothing. -/
def next (d : Deployment) (op : Op) : Deployment :=
  let call : RuntimeRegistry.Event := ⟨op, d.registry.instances.keys, (d.registry.exec d.registry.instances.keys op).1⟩
  { registry := (d.registry.exec d.registry.instances.keys op).2
    images := call.images ++ d.images
    issued := call.issued d.registry.authority.epoch ++ d.issued }

theorem next_step (d : Deployment) (op : Op) (hload : ∀ data, op ≠ .load_from data) :
    d.Step { call := ⟨op, d.registry.instances.keys, (d.registry.exec d.registry.instances.keys op).1⟩ } (d.next op) where
  call := ⟨.refl _, rfl⟩
  taken data hop := absurd hop (hload data)
  replaces h := by cases h
  images := rfl
  issued := rfl

theorem safe_next {op : Op} (hload : ∀ data, op ≠ .load_from data) (hepoch : op ≠ .begin_coordinator_epoch)
    (scan : List ServiceInstanceId) (reply : Except RegistryError Reply) : d.Safe { call := ⟨op, scan, reply⟩ } where
  restored data hop := absurd hop (hload data)
  refused data hop := absurd hop (hload data)
  epoch hop := absurd hop hepoch

/-- A load of an image that a registry within the bounds of the decoder gave. -/
theorem load_step {r : Registry} (h : r.Readable) (htaken : r.serialize ∈ d.images) (replaces : Bool) :
    ∃ e : Event, e.call.op = .load_from r.serialize ∧ d.Step e { d with registry := r.recovered } := by
  have hload : ∀ s : Registry, s.exec s.instances.keys (.load_from r.serialize) = (.ok .done, r.recovered) := by
    intro s
    rw [Registry.exec, Registry.load_from_serialize_restore h, Registry.restore_withRecords]
    rfl
  let e : Event := ⟨⟨.load_from r.serialize, (if replaces then Registry.fresh else d.registry).instances.keys, .ok .done⟩,
    replaces⟩
  refine ⟨e, rfl, ⟨⟨.refl _, hload _⟩, fun data hop => ?_, fun _ => ⟨_, rfl⟩, rfl, rfl⟩⟩
  cases hop
  exact htaken

/-- The registry after its first adoption. -/
def adopted : Registry := (Registry.fresh.exec Registry.fresh.instances.keys (.adopt_worker ⟨1⟩)).2

theorem adopted_holds {I : RecordCondition} (hI : I.Stable) : I.Holds adopted :=
  have hops : ∀ op ∈ [Op.adopt_worker ⟨1⟩], I.Admits op ∧ ∀ data, op ≠ .load_from data := by
    simp [RecordCondition.Admits]
  RecordCondition.Holds.after hI (RecordCondition.holds_fresh _) hops

theorem adopted_readable : adopted.Readable where
  keyed := wellKeyed_reachable (Registry.Reachable.after (.refl _) [.adopt_worker ⟨1⟩])
  texts := adopted_holds textsFit_stable
  lists := adopted_holds listsFit_stable
  kinds := adopted_holds kindsNamed_stable
  sizes := by constructor <;> decide +kernel

/-- An image is taken after an adoption, and a new registry goes on from it. -/
theorem boots_never_reissued_replaced : ∃ d₁ d₂ : Deployment, d₂.issued = [(⟨1⟩, ⟨102⟩), (⟨1⟩, ⟨101⟩)] ∧
    d₂.issued.Nodup ∧ ∃ since, d₂.issued = since ++ d₁.issued ∧
      ∀ env, d₁.registry.Accepts env → (env.epoch, env.boot) ∉ since := by
  have hadopt := start.next_step (.adopt_worker ⟨1⟩) (fun _ h => by cases h)
  have hserialize := (start.next (.adopt_worker ⟨1⟩)).next_step .serialize (fun _ h => by cases h)
  have htaken : adopted.serialize ∈ ((start.next (.adopt_worker ⟨1⟩)).next .serialize).images :=
    List.mem_append_left _ (List.mem_singleton.2 rfl)
  obtain ⟨e, hop, hload⟩ := load_step adopted_readable htaken true
  have hagain := ({ (start.next (.adopt_worker ⟨1⟩)).next .serialize with
    registry := adopted.recovered }).next_step (.adopt_worker ⟨2⟩) (fun _ h => by cases h)
  have hcovers : ((start.next (.adopt_worker ⟨1⟩)).next .serialize).Covers adopted.authority.epoch adopted.next_boot := by
    have hissued : ((start.next (.adopt_worker ⟨1⟩)).next .serialize).issued = [(⟨1⟩, ⟨101⟩)] := by decide +kernel
    have hnext : adopted.next_boot = 101 := by decide +kernel
    intro p hp _
    rw [hissued, List.mem_singleton] at hp
    rw [hp, hnext]
    exact UInt64.le_refl _
  have hsafe : ((start.next (.adopt_worker ⟨1⟩)).next .serialize).Safe e := by
    refine ⟨fun data hdata _ _ => ?_, fun data hdata hnot => ?_, fun h => by rw [hop] at h; cases h⟩
    · obtain rfl : adopted.serialize = data := by simpa [hop] using hdata
      rw [(Registry.headerOf_serialize _).1, (Registry.headerOf_serialize _).2]
      exact hcovers
    · obtain rfl : adopted.serialize = data := by simpa [hop] using hdata
      refine absurd ((Registry.load_from_returns_iff Registry.fresh _).1 ⟨(), ?_⟩) hnot
      rw [Registry.load_from_serialize_restore adopted_readable]
  refine ⟨_, _, ?_, boots_never_reissued
    (.cons ⟨hadopt, safe_next (fun _ h => by cases h) (fun h => by cases h) _ _⟩
      (.single ⟨hserialize, safe_next (fun _ h => by cases h) (fun h => by cases h) _ _⟩))
    (.cons ⟨hload, hsafe⟩ (.single ⟨hagain, safe_next (fun _ h => by cases h) (fun h => by cases h) _ _⟩)) ?_⟩
  · decide +kernel
  · decide +kernel

/-- An image that was taken before an adoption is loaded after it: the boot is
issued again, to another worker, and the envelopes of the first are accepted. -/
theorem boot_reissued :
    let before := (start.next .serialize).next (.adopt_worker ⟨1⟩)
    let after := { before with registry := Registry.fresh.recovered }.next (.adopt_worker ⟨2⟩)
    Lib.Reachable Step start before ∧ (∃ es, Run Step before es after) ∧
      after.issued = [(⟨1⟩, ⟨101⟩), (⟨1⟩, ⟨101⟩)] ∧ ¬ after.issued.Nodup ∧
      before.registry.Accepts Sample.env ∧ before.registry.authority.boot_owner ⟨101⟩ = ⟨1⟩ ∧
      after.registry.Accepts Sample.env ∧ after.registry.authority.boot_owner ⟨101⟩ = ⟨2⟩ := by
  intro before after
  have hserialize := start.next_step .serialize (fun _ h => by cases h)
  have hadopt := (start.next .serialize).next_step (.adopt_worker ⟨1⟩) (fun _ h => by cases h)
  have htaken : Registry.fresh.serialize ∈ before.images :=
    List.mem_append_right [] (List.mem_append_left _ (List.mem_singleton.2 rfl))
  obtain ⟨e, _, hload⟩ := load_step Registry.fresh_readable htaken false
  have hagain := ({ before with registry := Registry.fresh.recovered }).next_step (.adopt_worker ⟨2⟩)
    (fun _ h => by cases h)
  exact ⟨⟨_, .cons hserialize (.single hadopt)⟩, ⟨_, .cons hload (.single hagain)⟩, by decide +kernel, by decide +kernel,
    by decide +kernel, by decide +kernel, by decide +kernel, by decide +kernel⟩

end Deployment

end RuntimeRegistry
