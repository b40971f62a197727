import RuntimeRegistry.Decoding
import RuntimeRegistry.Footprints
import RuntimeRegistry.LoadFailures
/-!
# Which registries can be recovered

The registrations admit lists of any length and the decoder does not. Where no
accepted call brings an over-long list, nor one invalidation more than an image
can count, every state of a run can be written and loaded.
-/
open Lib Lib.Reader

namespace RuntimeRegistry

namespace Registry

variable {r : Registry}

/-! ## The vector of invalidations -/

/-- Only `invalidate` and `load_from` write the invalidations. -/
theorem exec_invalidations (scan : List ServiceInstanceId) (op : Op) (h₁ : op.class ≠ .image) :
    (r.exec scan op).2.invalidations = r.invalidations ∨
      ∃ record env, op = .invalidate record env ∧ (r.exec scan op).Returns ∧
        (r.exec scan op).2.invalidations = r.invalidations ++ [record] := by
  by_cases hc : op.class = .note
  swap
  · exact .inl ((r.exec_frame scan h₁).invalidations hc)
  cases op <;> simp only [Op.class, reduceCtorEq] at hc
  case invalidate record env =>
    refine authorized_rule (P := fun o => (o.map fun _ => Reply.done).2.invalidations = r.invalidations ∨
      ∃ record' env', Op.invalidate record env = .invalidate record' env' ∧ (o.map fun _ => Reply.done).Returns ∧
        (o.map fun _ => Reply.done).2.invalidations = r.invalidations ++ [record'])
      (fun _ _ => .inl rfl) fun _ => .inr ⟨record, env, rfl, ⟨_, rfl⟩, rfl⟩
  all_goals exact .inl rfl

/-- The step adds at most `k` invalidations. -/
def Adds (k : ℕ) (f : Loading) : Prop := ∀ c s, (f c s).2.invalidations.length ≤ s.invalidations.length + k

theorem Adds.next {f g : Loading} {k l : ℕ} (hf : Adds k f) (hg : Adds l g) : Adds (k + l) (f.next g) := by
  intro c s
  have h₁ := hf c s
  unfold Loading.next
  rcases hc : f c s with ⟨e | c', s'⟩ <;> rw [hc] at h₁
  · exact h₁.trans (Nat.add_le_add_left (Nat.le_add_right k l) _)
  · have h₂ := hg c' s'
    dsimp only [Outcome.andThen_ok] at h₁ ⊢
    omega

theorem Adds.skip {f g : Loading} {k : ℕ} (hf : Adds 0 f) (hg : Adds k g) : Adds k (f.next g) := by
  have h := hf.next hg
  rwa [Nat.zero_add] at h

theorem loadRecords_adds {ρ : Type} {get : Reader ρ} {broken : String} {refuse : Registry → ρ → Option String}
    {store : ρ → Registry → Registry} (k : ℕ) (hstore : ∀ x s, (store x s).invalidations.length ≤ s.invalidations.length + k)
    (n : ℕ) : Adds (n * k) (loadRecords get broken refuse store n) := by
  induction n with
  | zero => exact fun _ _ => Nat.le_add_right _ _
  | succ n ih =>
    intro c s
    simp only [loadRecords]
    split
    · exact Nat.le_add_right _ _
    · split
      · exact Nat.le_add_right _ _
      · have h₁ := hstore (get c).1 s
        have h₂ := ih (get c).2 (store (get c).1 s)
        rw [Nat.succ_mul]
        omega

theorem loadAll_adds (n : Counts) : Adds n.invalidations (loadAll n) := by
  have hloop : ∀ {ρ : Type} {get : Reader ρ} {broken : String} {refuse : Registry → ρ → Option String}
      {store : ρ → Registry → Registry} (n : ℕ), (∀ x s, (store x s).invalidations = s.invalidations) →
      Adds 0 (loadRecords get broken refuse store n) :=
    fun n h => loadRecords_adds 0 (fun x s => by rw [h]; exact le_rfl) n
  have hinvalidations : Adds n.invalidations (loadInvalidations n.invalidations) := by
    have h : Adds (n.invalidations * 1) (loadRecords get_invalidation "malformed invalidation record" (fun _ _ => none)
        (fun x s => { s with invalidations := s.invalidations ++ [x] }) n.invalidations) :=
      loadRecords_adds 1 (fun x s => by simp) _
    rwa [Nat.mul_one] at h
  unfold loadAll
  iterate 13 refine .skip (hloop _ fun _ _ => rfl) ?_
  refine .next (l := 0) hinvalidations ?_
  iterate 3 refine .skip (hloop _ fun _ _ => rfl) ?_
  exact hloop _ fun _ _ => rfl

theorem yields_rd_count : Yields rd_count fun n => n ≤ 10000000 := by
  refine .skip fun c => ?_
  split_ifs with hc
  · intro _ hok
    cases hok
  · have hle : c.toNat ≤ kMaxRecordsPerMap.toNat := UInt32.le_iff_toNat_le.1 (UInt32.not_lt.1 hc)
    exact .pure hle

instance : Moves rd_count := by unfold rd_count; infer_instance

theorem yields_counts : Yields get_counts fun n => n.invalidations ≤ 10000000 :=
  .skip fun _ => .skip fun _ => .skip fun _ => .skip fun _ => .skip fun _ => .skip fun _ => .skip fun _ =>
  .skip fun _ => .skip fun _ => .skip fun _ => .skip fun _ => .skip fun _ => .skip fun _ =>
  .bind yields_rd_count fun _ h => .skip fun _ => .skip fun _ => .skip fun _ => .skip fun _ => .pure h

instance : Moves get_counts := by unfold get_counts; infer_instance

/-- An image holds at most as many invalidations as it can count. -/
theorem imageRecords_invalidations {data : List UInt8} (h : Admitted data) :
    (imageRecords data).2.invalidations.length ≤ 10000000 := by
  have hcounts : Yields get_header fun h => h.counts.invalidations ≤ 10000000 :=
    .skip fun _ => .skip fun _ => .skip fun _ => .bind yields_counts fun _ h => .pure h
  have hn : (headerOf (sealedContent data)).1.counts.invalidations ≤ 10000000 := hcounts _ h.2.2.2
  have hadds := loadAll_adds (headerOf (sealedContent data)).1.counts (headerOf (sealedContent data)).2 {}
  rw [List.length_nil, Nat.zero_add] at hadds
  dsimp only [imageRecords]
  exact le_trans hadds hn

theorem withRecords_invalidations (r s : Registry) : (r.withRecords s).invalidations = r.invalidations := rfl

theorem restore_invalidations (h : Header) (r : Registry) : (restore h r).invalidations = r.invalidations := by
  obtain ⟨_, _, _, _, hw⟩ := rebuild_indexes_writes { r with
    authority := h.authority, next_boot := h.next_boot, next_id := h.next_id
    instances := r.instances.map fun _ => recoverInstance, endpoints := r.endpoints.map fun _ => recoverEndpoint
    capabilities := r.capabilities.map fun _ => recoverCapability, leases := r.leases.map fun _ => recoverLease }
  exact congrArg (·.invalidations) hw

theorem load_from_invalidations (data : List UInt8) (h : r.invalidations.length ≤ 10000000) :
    (r.load_from data).2.invalidations.length ≤ 10000000 := by
  by_cases ha : Admitted data
  · have hi := imageRecords_invalidations ha
    by_cases hc : Complete data
    · obtain ⟨c, hok, hcok, hpos⟩ := hc
      rw [load_from_admitted ha, hok]
      simp only [Outcome.andThen_ok, hcok, hpos, Bool.not_true, Bool.false_eq_true, ne_eq, not_true, if_false,
        restore_invalidations, withRecords_invalidations]
      exact hi
    · obtain ⟨e, he⟩ := load_from_incomplete ha hc r
      rw [he, withRecords_invalidations]
      exact hi
  · obtain ⟨e, he⟩ := load_from_not_admitted ha r
    rwa [he]

/-! ## Runs that can be recovered -/

/-- The call stores no list that the decoder refuses, and no invalidation more
than an image can count. -/
def Storable (r : Registry) (e : Event) : Prop :=
  ∀ reply, e.reply = .ok reply → listsFit.Admits e.op ∧
    ∀ record env, e.op = .invalidate record env → r.invalidations.length < 10000000

/-- What storable calls keep. -/
def Countable (r : Registry) : Prop := listsFit.Holds r ∧ r.invalidations.length ≤ 10000000

theorem countable_step {t : Registry} {e : Event} (h : r.Countable) (hs : Guarded Step Storable r e t) : t.Countable := by
  obtain ⟨hstep, hstore⟩ := hs
  have hreturns : (r.exec e.scan e.op).Returns → ∃ reply, e.reply = .ok reply := by
    rintro ⟨reply, hr⟩
    exact ⟨reply, (congrArg (·.1) hstep.2).symm.trans hr⟩
  rw [hstep.state]
  refine ⟨h.1.exec listsFit_stable (fun _ _ => listsFit_decoded) fun hr => ?_, ?_⟩
  · obtain ⟨reply, hreply⟩ := hreturns hr
    exact (hstore reply hreply).1
  · by_cases himage : e.op.class = .image
    · obtain ⟨data, hop⟩ := Op.eq_load_from himage
      rw [hop]
      exact load_from_invalidations data h.2
    · rcases r.exec_invalidations e.scan e.op himage with heq | ⟨record, env, hop, hr, heq⟩
      · rw [heq]
        exact h.2
      · obtain ⟨reply, hreply⟩ := hreturns hr
        have hlt := (hstore reply hreply).2 record env hop
        rw [heq, List.length_append, List.length_singleton]
        omega

/-- In a run of storable calls, every state of named kinds and of texts and sizes
within the bounds can be loaded again. -/
theorem recoverable_run {es : List Event} (hr : Run (Guarded Step Storable) fresh es r) (hkinds : kindsNamed.Holds r)
    (htexts : textsFit.Holds r) (hsizes : { r with invalidations := [] }.SizesFit) (s : Registry) :
    (s.load_from r.serialize).Returns := by
  have hfresh : fresh.Countable := ⟨RecordCondition.holds_fresh _, by decide +kernel⟩
  have hc : r.Countable := hr.inv Countable (fun _ _ _ h hs => countable_step h hs) hfresh
  have hfits : r.SizesFit := { hsizes with invalidations := hc.2 }
  rw [load_from_serialize ⟨es, hr.unguarded⟩ hkinds htexts hc.1 hfits]
  exact Outcome.returns_ok _ _

theorem recoverable_run_sample : (fresh.load_from Sample.registry.serialize).Returns := by
  obtain ⟨es, hr⟩ := run_after fresh (Q := fun op => listsFit.Admits op ∧ ∀ record env, op ≠ .invalidate record env)
    Sample.setup (by simp [Sample.setup, RecordCondition.Admits, listsFit, Sample.service, Sample.incarnation,
      ServiceDescriptor.ListsFit, ServiceInstance.ListsFit])
  have hrun : Run (Guarded Step Storable) fresh es Sample.registry := hr.mono fun s e t hs =>
    ⟨hs.1, fun _ _ => ⟨hs.2.1, fun record env hop => absurd hop (hs.2.2 record env)⟩⟩
  exact recoverable_run hrun sample_readable.kinds sample_readable.texts
    { sample_readable.sizes with invalidations := Nat.zero_le _ } fresh

/-! ## A registration that cannot be read back -/

theorem fails_list {α : Type} {max : UInt32} {get : Reader α} [Moves get] {put : α → List UInt8} {xs : List α}
    (hmax : max.toNat < xs.length) (hlen : xs.length < 2 ^ 32) : Fails (get_list max get) (put_list put xs) := by
  have hn : UInt32.ofNat xs.length > max := by
    rw [gt_iff_lt, UInt32.lt_iff_toNat_lt, UInt32.toNat_ofNat', Nat.mod_eq_of_lt hlen]
    exact hmax
  refine (reads_u32 _).bind_fails ?_
  rw [if_pos hn]
  intro pre post
  exact Bool.eq_false_iff.2 fun hok => nomatch (many_moves get _).ok _ hok

/-- A service with too many required capabilities is written, and not read. -/
theorem fails_servicedesc {s : ServiceDescriptor} (ht : s.TextsFit) (hmax : 256 < s.required_capabilities.length)
    (hlen : s.required_capabilities.length < 2 ^ 32) : Fails get_servicedesc (put_servicedesc s) := by
  have hlist : Fails (get_list 256 get_enum) (put_list put_enum s.required_capabilities) := fails_list hmax hlen
  unfold put_servicedesc
  simp only [List.append_assoc]
  exact (reads_id _).bind_fails <| (reads_enum _).bind_fails <| (reads_str ht.1).bind_fails <|
    (reads_gen _).bind_fails <| (reads_id _).bind_fails <| (reads_enum _).bind_fails <|
    (reads_version ht.2.1).bind_fails <| (reads_sv _).bind_fails <| (reads_sv _).bind_fails <| hlist.bind

/-- A service that requires one capability more than the decoder reads. -/
def wideService : ServiceDescriptor :=
  { Sample.service with required_capabilities := List.replicate 257 CapabilityKind.CUDA_AVAILABLE }

theorem wideService_length : wideService.required_capabilities.length = 257 := List.length_replicate

theorem wideService_textsFit : wideService.TextsFit := by
  refine ⟨?_, ⟨?_, ?_⟩, ⟨?_, ?_⟩, ?_⟩ <;> exact Nat.zero_le _

def wideRegistry : Registry := fresh.after [.adopt_worker ⟨1⟩, .register_service wideService Sample.env]

theorem wideRegistry_sizes : wideRegistry.SizesFit := by
  constructor <;> decide +kernel

theorem wideRegistry_services : Table.values wideRegistry.services = [wideService] := rfl

/-- The service is admitted, and the image of the registry is refused. -/
theorem register_service_unreadable :
    wideRegistry.Reachable ∧ kindsNamed.Holds wideRegistry ∧ textsFit.Holds wideRegistry ∧ wideRegistry.SizesFit ∧
      ¬ (fresh.load_from wideRegistry.serialize).Returns := by
  refine ⟨Reachable.after (.refl _) _, ?_, ?_, wideRegistry_sizes, ?_⟩
  · refine RecordCondition.Holds.after kindsNamed_stable (RecordCondition.holds_fresh _) ?_
    have hkind : wideService.kind.Named := Enum.named_named _
    simp [RecordCondition.Admits, kindsNamed, hkind]
  · refine RecordCondition.Holds.after textsFit_stable (RecordCondition.holds_fresh _) ?_
    simp [RecordCondition.Admits, textsFit, wideService_textsFit]
  have hfails : Fails get_servicedesc (put_servicedesc wideService) :=
    fails_servicedesc wideService_textsFit (by rw [wideService_length]; decide) (by rw [wideService_length]; decide)
  have hrecords : ∃ rest, wideRegistry.put_records = put_servicedesc wideService ++ rest := by
    unfold put_records
    simp only [List.append_assoc]
    rw [serialize_sorted_keys wideRegistry.services, wideRegistry_services]
    exact ⟨_, by rw [List.flatMap_singleton]⟩
  obtain ⟨rest, hrest⟩ := hrecords
  have hcount : wideRegistry.counts.services = 1 := rfl
  have hload := hfails wideRegistry.put_prefix rest
  rw [serialize, load_from_withTrailer _ (put_content_length _), put_content_eq,
    loadContent_prefix wideRegistry_sizes, hrest]
  simp only [loadAll, Loading.next, hcount, loadServices, loadRecords, hload]
  exact Outcome.not_returns_error _ _

end Registry

end RuntimeRegistry
