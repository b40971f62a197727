import RuntimeRegistry.Recovery
/-!
# What a failed load leaves behind

The checks of the trailer and the header come before the record maps are cleared;
the records are read into the cleared maps, and a record that is refused leaves
there what was read before it. What the loops read depends on the image alone.
-/
open Lib Lib.Reader

namespace RuntimeRegistry

namespace Registry

/-! ## What an image says -/

/-- The bytes that the trailer seals. -/
def sealedContent (data : List UInt8) : List UInt8 := data.take (data.length - 36)

/-- The checksums of the trailer are those of the content. -/
def Sealed (data : List UInt8) : Prop :=
  46 ≤ data.length ∧
    crc32 (sealedContent data) = (u32 { data := data, pos := data.length - 36 }).1 ∧
    sha256 (sealedContent data) = (data.drop (data.length - 36 + 4)).take 32

/-- The reader of the header behind the magic and the version. -/
def headerOf (content : List UInt8) : Header × Cursor := get_header (u8 (u32 { data := content }).2).2

/-- The image passes every check that is made before the maps are cleared. -/
def Admitted (data : List UInt8) : Prop :=
  Sealed data ∧ (u32 { data := sealedContent data }).1 = kPersistMagic ∧
    (u8 (u32 { data := sealedContent data }).2).1 = kPersistVersion ∧ (headerOf (sealedContent data)).2.ok = true

/-- The record loops over the image, from a registry without records. -/
def imageRecords (data : List UInt8) : Outcome Cursor :=
  let h := headerOf (sealedContent data)
  loadAll h.1.counts h.2 {}

/-- No record of the image is refused, and nothing stands behind the last one. -/
def Complete (data : List UInt8) : Prop :=
  ∃ c, (imageRecords data).1 = .ok c ∧ c.ok = true ∧ c.pos = (sealedContent data).length

/-- The registry stores exactly the records of the image before the first refused one. -/
def StoresPrefix (r : Registry) (data : List UInt8) : Prop := (imageRecords data).2.withRecords r = r

/-! ## The loops read the image alone -/

/-- The step does not look at anything but the records, and writes nothing else. -/
def Framed (f : Loading) : Prop :=
  ∀ c (t s : Registry), f c (t.withRecords s) = ((f c t).1, (f c t).2.withRecords s)

theorem Framed.next {f g : Loading} (hf : Framed f) (hg : Framed g) : Framed (f.next g) := by
  intro c t s
  simp only [Loading.next, hf c t s]
  rcases f c t with ⟨e | c', t'⟩
  · rfl
  · exact hg c' t' s

theorem loadRecords_framed {ρ : Type} {get : Reader ρ} {broken : String} {refuse : Registry → ρ → Option String}
    {store : ρ → Registry → Registry} (hrefuse : ∀ x t s, refuse (withRecords t s) x = refuse t x)
    (hstore : ∀ x t s, store x (withRecords t s) = withRecords (store x t) s) (n : ℕ) :
    Framed (loadRecords get broken refuse store n) := by
  induction n with
  | zero => exact fun _ _ _ => rfl
  | succ n ih =>
    intro c t s
    simp only [loadRecords, hrefuse]
    split
    · rfl
    · split
      · rfl
      · rw [hstore]
        exact ih _ _ _

theorem loadAll_framed (n : Counts) : Framed (loadAll n) := by
  have hloop : ∀ {ρ : Type} {get : Reader ρ} {broken : String} {refuse : Registry → ρ → Option String}
      {store : ρ → Registry → Registry} (n : ℕ), (∀ x t s, refuse (withRecords t s) x = refuse t x) →
      (∀ x t s, store x (withRecords t s) = withRecords (store x t) s) →
      Framed (loadRecords get broken refuse store n) := fun n h₁ h₂ => loadRecords_framed h₁ h₂ n
  unfold loadAll
  repeat' apply Framed.next
  all_goals exact hloop _ (fun _ _ _ => rfl) fun _ _ _ => rfl

/-- An image that is not admitted throws before the maps are cleared. -/
theorem load_from_not_admitted {data : List UInt8} (h : ¬ Admitted data) (r : Registry) :
    ∃ e, r.load_from data = (.error e, r) := by
  unfold load_from
  dsimp only
  split_ifs with hlen hcrc hsha
  · exact ⟨_, rfl⟩
  · exact ⟨_, rfl⟩
  · exact ⟨_, rfl⟩
  have hsealed : Sealed data := ⟨not_lt.1 hlen, not_not.1 hcrc, not_not.1 hsha⟩
  unfold loadContent
  dsimp only
  split_ifs with hmagic hversion hok
  · exact ⟨_, rfl⟩
  · exact ⟨_, rfl⟩
  · exact ⟨_, rfl⟩
  · rw [Bool.not_eq_true, Bool.not_eq_false'] at hok
    exact absurd ⟨hsealed, not_not.1 hmagic, not_not.1 hversion, by unfold headerOf sealedContent; exact hok⟩ h

/-- An admitted image is read into the cleared maps. -/
theorem load_from_admitted {data : List UInt8} (h : Admitted data) (r : Registry) :
    r.load_from data = Outcome.andThen ((imageRecords data).1, (imageRecords data).2.withRecords r) fun c t =>
      if !c.ok then (.error (malformed "truncated/malformed persistence record"), t)
      else if c.pos ≠ (sealedContent data).length then (.error (malformed "trailing garbage in persistence"), t)
      else (.ok (), restore (headerOf (sealedContent data)).1 t) := by
  obtain ⟨⟨hlen, hcrc, hsha⟩, hmagic, hversion, hok⟩ := h
  have hnot : ¬ data.length < 46 := not_lt.2 hlen
  have hload : r.load_from data = r.loadContent (sealedContent data) := by
    unfold load_from
    rw [if_neg hnot]
    dsimp only
    rw [← sealedContent, if_neg (not_not.2 hcrc), if_neg (not_not.2 hsha)]
  have hcleared : r.cleared = ({} : Registry).withRecords r := rfl
  have hframed := loadAll_framed (headerOf (sealedContent data)).1.counts (headerOf (sealedContent data)).2 {} r
  have hread : get_header (u8 (u32 { data := sealedContent data }).2).2 = headerOf (sealedContent data) := by
    rw [headerOf]
  rw [hload]
  unfold loadContent
  simp only [hmagic, hversion, hread, hok, ne_eq, not_true, if_false, Bool.not_true, Bool.false_eq_true]
  rw [hcleared, hframed]
  rfl

theorem load_from_complete {data : List UInt8} (h : Admitted data) (hc : Complete data) (r : Registry) :
    (r.load_from data).Returns := by
  obtain ⟨c, hok, hcok, hpos⟩ := hc
  rw [load_from_admitted h, hok]
  simp [hcok, hpos]

/-- A refused record, or bytes behind the last one, leave what was read before. -/
theorem load_from_incomplete {data : List UInt8} (h : Admitted data) (hc : ¬ Complete data) (r : Registry) :
    ∃ e, r.load_from data = (.error e, (imageRecords data).2.withRecords r) := by
  rw [load_from_admitted h]
  rcases ho : (imageRecords data).1 with e | c
  · exact ⟨e, rfl⟩
  · simp only [Outcome.andThen_ok]
    split_ifs with hok hpos
    · exact ⟨_, rfl⟩
    · exact ⟨_, rfl⟩
    · exact absurd ⟨c, ho, by simpa using hok, not_not.1 hpos⟩ hc

/-- `load_from` accepts an image that is admitted and complete, and no other. -/
theorem load_from_returns_iff (r : Registry) (data : List UInt8) :
    (r.load_from data).Returns ↔ Admitted data ∧ Complete data := by
  refine ⟨fun ⟨u, hu⟩ => ?_, fun h => load_from_complete h.1 h.2 r⟩
  by_cases ha : Admitted data
  · by_cases hc : Complete data
    · exact ⟨ha, hc⟩
    · obtain ⟨e, he⟩ := load_from_incomplete ha hc r
      rw [he] at hu
      cases hu
  · obtain ⟨e, he⟩ := load_from_not_admitted ha r
    rw [he] at hu
    cases hu

/-- A load of an image that is read to its end leaves what recovery makes of its
records, any other admitted image the records before the refusal. -/
theorem load_from_rule {P : Registry → Prop} {r : Registry} {data : List UInt8} (refused : ¬ Admitted data → P r)
    (broken : Admitted data → ¬ Complete data → P ((imageRecords data).2.withRecords r))
    (restored : Admitted data → Complete data →
      P (restore (headerOf (sealedContent data)).1 ((imageRecords data).2.withRecords r))) :
    P (r.load_from data).2 := by
  by_cases h : Admitted data
  · by_cases hc : Complete data
    · obtain ⟨c, hok, hcok, hpos⟩ := id hc
      have ht : (r.load_from data).2 = restore (headerOf (sealedContent data)).1 ((imageRecords data).2.withRecords r) := by
        rw [load_from_admitted h, hok]
        simp [hcok, hpos]
      rw [ht]
      exact restored h hc
    · obtain ⟨e, he⟩ := load_from_incomplete h hc r
      rw [congrArg Prod.snd he]
      exact broken h hc
  · obtain ⟨e, he⟩ := load_from_not_admitted h r
    rw [congrArg Prod.snd he]
    exact refused h

/-- A load that throws leaves the registry as it was if and only if the image is
refused before its records, is complete, or begins with just the records that
the registry stores. -/
theorem load_from_throws_unchanged_iff (r : Registry) (data : List UInt8) :
    (∀ e t, r.load_from data = (.error e, t) → t = r) ↔ (Admitted data → Complete data ∨ r.StoresPrefix data) := by
  by_cases h : Admitted data
  · by_cases hc : Complete data
    · obtain ⟨u, hu⟩ := load_from_complete h hc r
      refine iff_of_true (fun e t he => ?_) fun _ => .inl hc
      rw [he] at hu
      cases hu
    · obtain ⟨e, he⟩ := load_from_incomplete h hc r
      refine ⟨fun hall _ => .inr (hall e _ he), fun hp e' t ht => ?_⟩
      obtain rfl : (imageRecords data).2.withRecords r = t := congrArg (·.2) (he.symm.trans ht)
      exact (hp h).resolve_left hc
  · obtain ⟨e, he⟩ := load_from_not_admitted h r
    refine iff_of_true (fun e' t ht => ?_) fun ha => absurd ha h
    exact congrArg (·.2) (ht.symm.trans he)

/-! ## A byte behind the last record -/

/-- The image of a new registry with one more byte, sealed. -/
def trailingImage : List UInt8 := withTrailer (fresh.put_content ++ [0])

theorem fresh_readable : fresh.Readable :=
  ⟨RecordCondition.holds_fresh _, RecordCondition.holds_fresh _, RecordCondition.holds_fresh _,
    RecordCondition.holds_fresh _, by constructor <;> decide +kernel⟩

/-- The trailing byte is found when the service is gone. -/
theorem load_from_throws_after_clearing :
    ∃ e t, Sample.registry.load_from trailingImage = (.error e, t) ∧ t ≠ Sample.registry ∧
      t.services.size = 0 ∧ Sample.registry.services.size = 1 := by
  have hlen : 10 ≤ (fresh.put_content ++ [0]).length :=
    (put_content_length fresh).trans (by rw [List.length_append]; exact Nat.le_add_right _ _)
  have hall := loadAll_loads fresh_readable Sample.registry fresh.put_prefix [0]
  have hsize : Sample.registry.services.size = 1 := by decide +kernel
  have hload : ∃ e, Sample.registry.load_from trailingImage = (.error e, fresh.withRecords Sample.registry) := by
    rw [trailingImage, load_from_withTrailer _ hlen, put_content_eq, List.append_assoc,
      loadContent_prefix fresh_readable.sizes, hall]
    simp
  obtain ⟨e, he⟩ := hload
  have hempty : (fresh.withRecords Sample.registry).services.size = 0 := by decide +kernel
  refine ⟨e, _, he, fun heq => ?_, hempty, hsize⟩
  rw [heq, hsize] at hempty
  cases hempty

end Registry

end RuntimeRegistry
