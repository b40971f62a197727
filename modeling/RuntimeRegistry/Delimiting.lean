import RuntimeRegistry.Lib.Prefixes
import RuntimeRegistry.Capvals
import RuntimeRegistry.LoadFailures
/-!
# The content of an image delimits itself

Every reader that ends with `ok` set reads the same from a longer buffer, so the record
loops of a content that is accepted end at the same byte in every content that begins
with it. The last check of `load_from` lets no byte stand there.
-/
open Lib Lib.Reader

namespace RuntimeRegistry

/-! ## The readers -/

/-- A byte of the buffer is the same byte of the longer one. -/
theorem prolonged_getElem {c : Cursor} (more : List UInt8) {i : ℕ} (h : i < c.data.length)
    (h' : i < (c.prolonged more).data.length) : (c.prolonged more).data[i] = c.data[i] :=
  List.getElem_append_left h

theorem prolonged_length {c : Cursor} (more : List UInt8) {i : ℕ} (h : ¬ c.pos + i > c.data.length) :
    ¬ (c.prolonged more).pos + i > (c.prolonged more).data.length := by
  simp only [Cursor.prolonged_data, Cursor.prolonged_pos, List.length_append]
  omega

instance : Prolongs u8 where
  prolong c more hok := by
    unfold u8 at hok ⊢
    by_cases h : c.pos + 1 > c.data.length
    · simp [h] at hok
    · rw [dif_neg h, dif_neg (prolonged_length more h)]
      exact Prod.ext (prolonged_getElem more _ _) rfl

instance : Prolongs u32 where
  prolong c more hok := by
    unfold u32 at hok ⊢
    by_cases h : c.pos + 4 > c.data.length
    · simp [h] at hok
    · rw [dif_neg h, dif_neg (prolonged_length more h)]
      simp only [Cursor.prolonged_pos]
      iterate 4 rw [prolonged_getElem more (by omega)]
      rfl

instance : Prolongs u64 := by unfold u64; infer_instance

instance : Prolongs f64 := by unfold f64; infer_instance

instance (len : UInt32) : Prolongs (take len) where
  prolong c more hok := by
    unfold take at hok ⊢
    by_cases h : !c.ok || c.pos + len.toNat > c.data.length || len > 0x1000000
    · simp [h] at hok
    · have hfit : ¬ c.pos + len.toNat > c.data.length := fun hlong => h (by simp [hlong])
      have hmore : ¬ (!(c.prolonged more).ok || (c.prolonged more).pos + len.toNat > (c.prolonged more).data.length ||
          len > 0x1000000) := by
        simp only [Bool.or_eq_true, decide_eq_true_eq, not_or, Cursor.prolonged_ok] at h ⊢
        exact ⟨⟨h.1.1, prolonged_length more hfit⟩, h.2⟩
      have htext : ((c.data ++ more).drop c.pos).take len.toNat = (c.data.drop c.pos).take len.toNat := by
        rw [List.drop_append_of_le_length (by omega), List.take_append_of_le_length]
        rw [List.length_drop]
        omega
      rw [if_neg h, if_neg hmore]
      exact Prod.ext htext rfl

instance : Prolongs str := by unfold str; infer_instance

instance : Prolongs get_i64 := by unfold get_i64; infer_instance

instance : Prolongs get_bool := by unfold get_bool; infer_instance

instance {ε : Type} [Enumerators ε] : Prolongs (get_enum (ε := ε)) := by unfold get_enum; infer_instance

instance {tag : IdTag} : Prolongs (get_id : Reader (Id tag)) := by unfold get_id; infer_instance

instance {tag : GenTag} : Prolongs (get_gen : Reader (Gen tag)) := by unfold get_gen; infer_instance

instance {α : Type} (max : UInt32) (get : Reader α) [Prolongs get] : Prolongs (get_list max get) := by
  unfold get_list; infer_instance

instance : Prolongs get_version := by unfold get_version; infer_instance

instance {tag : VersionTag} : Prolongs (get_sv : Reader (StructuredVersion tag)) := by unfold get_sv; infer_instance

instance : Prolongs get_prov := by unfold get_prov; infer_instance

instance get_capval_to_prolongs (depth : ℕ) : Prolongs (get_capval_to depth) := by
  induction depth with
  | zero => unfold get_capval_to; infer_instance
  | succ depth ih => unfold get_capval_to; infer_instance

/-- A longer buffer allows for deeper nesting, which the value does not have. -/
instance : Prolongs get_capval where
  prolong c more hok := by
    have hdepth : (c.data.length - c.pos) / 4 < ((c.prolonged more).data.length - (c.prolonged more).pos) / 4 + 1 := by
      simp only [Cursor.prolonged_data, Cursor.prolonged_pos, List.length_append]
      omega
    rw [← get_capval_to_eq hdepth] at hok ⊢
    exact (get_capval_to_prolongs _).prolong c more hok

instance : Prolongs get_servicedesc := by unfold get_servicedesc; infer_instance

instance : Prolongs get_instance := by unfold get_instance; infer_instance

instance : Prolongs get_runtime := by unfold get_runtime; infer_instance

instance : Prolongs get_endpoint := by unfold get_endpoint; infer_instance

instance : Prolongs get_protocol := by unfold get_protocol; infer_instance

instance : Prolongs get_backend := by unfold get_backend; infer_instance

instance : Prolongs get_device := by unfold get_device; infer_instance

instance : Prolongs get_capability := by unfold get_capability; infer_instance

instance : Prolongs get_node := by unfold get_node; infer_instance

instance : Prolongs get_lease := by unfold get_lease; infer_instance

instance : Prolongs get_tombstone := by unfold get_tombstone; infer_instance

instance : Prolongs get_compat := by unfold get_compat; infer_instance

instance : Prolongs get_invalidation := by unfold get_invalidation; infer_instance

/-! ## The header and the loops -/

namespace Registry

instance : Prolongs rd_count := by unfold rd_count; infer_instance

instance : Prolongs get_counts := by unfold get_counts; infer_instance

instance : Prolongs get_authority := by unfold get_authority; infer_instance

instance : Prolongs get_header := by unfold get_header; infer_instance

/-- A step that ends does the same, and ends at the same place, over a longer buffer. -/
def Continues (f : Loading) : Prop :=
  ∀ {c s c' s'} (more : List UInt8), f c s = (.ok c', s') → f (c.prolonged more) s = (.ok (c'.prolonged more), s')

theorem Continues.next {f g : Loading} (hf : Continues f) (hg : Continues g) : Continues (f.next g) := by
  intro c s c' s' more h
  unfold Loading.next at h ⊢
  rcases hfirst : f c s with ⟨e | c₁, s₁⟩ <;> rw [hfirst] at h
  · cases h
  · rw [hf more hfirst]
    exact hg more h

/-- Each round goes on only where its record was read with `ok` set. -/
theorem loadRecords_continues {ρ : Type} {get : Reader ρ} [Prolongs get] {broken : String}
    {refuse : Registry → ρ → Option String} {store : ρ → Registry → Registry} (n : ℕ) :
    Continues (loadRecords get broken refuse store n) := by
  induction n with
  | zero =>
    intro c s c' s' more h
    cases h
    rfl
  | succ n ih =>
    intro c s c' s' more h
    simp only [loadRecords] at h ⊢
    by_cases hok : (get c).2.ok = true
    · rw [Prolongs.prolong c more hok]
      simp only [hok, Bool.not_true, Bool.false_eq_true, if_false, Cursor.prolonged_ok] at h ⊢
      cases hrefuse : refuse s (get c).1 with
      | some message =>
        rw [hrefuse] at h
        cases h
      | none =>
        rw [hrefuse] at h
        exact ih more h
    · simp only [hok, Bool.not_false, if_true] at h
      cases h

theorem loadAll_continues (n : Counts) : Continues (loadAll n) := by
  unfold loadAll
  repeat' apply Continues.next
  all_goals exact loadRecords_continues _

/-! ## Accepted contents -/

/-- The reader of everything before the records. -/
theorem headerOf_eq (content : List UInt8) :
    headerOf content = (do let _ ← u32; let _ ← u8; get_header : Reader Header) { data := content } := rfl

theorem headerOf_append {content : List UInt8} (more : List UInt8) (hok : (headerOf content).2.ok = true) :
    headerOf (content ++ more) = ((headerOf content).1, (headerOf content).2.prolonged more) := by
  rw [headerOf_eq] at hok ⊢
  exact Prolongs.prolong { data := content } more hok

/-- The record parser reads the header, refuses no record, and ends where the content does. -/
def Parses (content : List UInt8) : Prop :=
  (headerOf content).2.ok = true ∧ ∃ c t, loadAll (headerOf content).1.counts (headerOf content).2 {} = (.ok c, t) ∧
    c.pos = content.length

/-- What the registry held before does not matter. -/
theorem loadContent_parses {r : Registry} {content : List UInt8} (h : (r.loadContent content).Returns) :
    Parses content := by
  unfold loadContent at h
  dsimp only at h
  split_ifs at h with hmagic hversion hok
  · exact absurd h (Outcome.not_returns_error _ _)
  · exact absurd h (Outcome.not_returns_error _ _)
  · exact absurd h (Outcome.not_returns_error _ _)
  have hcleared : r.cleared = ({} : Registry).withRecords r := rfl
  rw [← headerOf, hcleared, loadAll_framed] at h
  rw [← headerOf, Bool.not_eq_true, Bool.not_eq_false'] at hok
  rcases hall : loadAll (headerOf content).1.counts (headerOf content).2 {} with ⟨e | c, t⟩ <;> rw [hall] at h
  · exact absurd h (Outcome.not_returns_error _ _)
  simp only [Outcome.andThen_ok] at h
  split_ifs at h with hend hpos
  · exact absurd h (Outcome.not_returns_error _ _)
  · exact absurd h (Outcome.not_returns_error _ _)
  · exact ⟨hok, c, t, hall, not_not.1 hpos⟩

/-- Of two contents that the parser accepts, none goes on where the other ends. -/
theorem Parses.unique {content more : List UInt8} (h : Parses content) (h' : Parses (content ++ more)) : more = [] := by
  obtain ⟨hok, c, t, hall, hpos⟩ := h
  obtain ⟨-, c', t', hall', hpos'⟩ := h'
  have hcontinues := loadAll_continues _ more hall
  rw [headerOf_append more hok] at hall'
  rw [hcontinues, Prod.mk.injEq, Except.ok.injEq] at hall'
  rw [← hall'.1, Cursor.prolonged_pos, hpos, List.length_append] at hpos'
  exact List.length_eq_zero_iff.1 (by omega)

/-- A content that the record parser accepts is no proper beginning and no proper
continuation of one that it accepts, whatever registries the two are loaded into and
whatever their checksums are. -/
theorem loadContent_self_delimiting {r : Registry} {content : List UInt8} (h : (r.loadContent content).Returns)
    (r' : Registry) {content' : List UInt8} (hne : content' ≠ content)
    (hcut : content' <+: content ∨ content <+: content') : ¬ (r'.loadContent content').Returns := by
  intro h'
  rcases hcut with ⟨more, rfl⟩ | ⟨more, rfl⟩
  · obtain rfl := (loadContent_parses h').unique (loadContent_parses h)
    exact hne (List.append_nil _).symm
  · obtain rfl := (loadContent_parses h).unique (loadContent_parses h')
    exact hne (List.append_nil _)

/-- The sample with a capability whose value holds another value. -/
def Sample.nesting : List Op := Sample.setup ++ [.register_capability
  { capability_id := ⟨4⟩
    value := { kind := CapabilityValueKind.STRUCTURED, structured := [(text "slots", { kind := CapabilityValueKind.INTEGER, integer := 2 })] } }
  Sample.env]

def Sample.nested : Registry := fresh.after Sample.nesting

theorem nested_readable : Sample.nested.Readable where
  keyed := wellKeyed_reachable (ReachableWithoutLoad.after (.refl _) (by simp [Sample.nesting, Sample.setup])).reachable
  texts := by
    have hkey : (text "slots").length ≤ 0x1000000 := by decide
    refine RecordCondition.Holds.after textsFit_stable (RecordCondition.holds_fresh _) ?_
    simp [Sample.nesting, Sample.setup, RecordCondition.Admits, textsFit, Sample.service, Sample.incarnation, Text.Fits,
      ServiceDescriptor.TextsFit, ServiceInstance.TextsFit, CapabilityDescriptor.TextsFit, CapabilityValue.TextsFit,
      EntriesTextsFit, SemanticVersion.TextsFit, Provenance.TextsFit, hkey]
  lists := by
    refine RecordCondition.Holds.after listsFit_stable (RecordCondition.holds_fresh _) ?_
    simp [Sample.nesting, Sample.setup, RecordCondition.Admits, listsFit, Sample.service, Sample.incarnation,
      ServiceDescriptor.ListsFit, ServiceInstance.ListsFit, CapabilityDescriptor.ListsFit, CapabilityValue.ListsFit,
      EntriesListsFit]
  kinds := by
    refine RecordCondition.Holds.after kindsNamed_stable (RecordCondition.holds_fresh _) ?_
    simp [Sample.nesting, Sample.setup, RecordCondition.Admits, kindsNamed, Sample.service, Enum.named_named]
  sizes := by constructor <;> decide +kernel

/-- The content of its image, with one byte more and one byte less. -/
theorem loadContent_self_delimiting_nested :
    ¬ (fresh.loadContent (Sample.nested.put_content ++ [0])).Returns ∧
      ¬ (fresh.loadContent Sample.nested.put_content.dropLast).Returns := by
  have hload : (fresh.loadContent Sample.nested.put_content).Returns := by
    rw [← load_from_withTrailer _ (put_content_length Sample.nested), ← serialize, load_from_serialize_restore nested_readable]
    exact Outcome.returns_ok _ _
  refine ⟨loadContent_self_delimiting hload fresh ?_ (.inr (List.prefix_append _ _)),
    loadContent_self_delimiting hload fresh ?_ (.inl (List.dropLast_prefix _))⟩
  · simp
  · intro heq
    have hlen := congrArg List.length heq
    have hpos := put_content_length Sample.nested
    rw [List.length_dropLast] at hlen
    omega

end Registry

end RuntimeRegistry
