import RuntimeRegistry.Overflow
/-!
# The grammar of versions

`major.minor.patch[-prerelease][+build]`, as the rules of semantic versioning write it,
against what `parse` accepts, however an overflow of its numbers comes out.
-/
open Lib

namespace RuntimeRegistry

namespace SemanticVersion

variable {s t : Text} {p q : Parts} {v : SemanticVersion} {after : AfterOverflow}

/-! ## The rules -/

/-- A number of the version proper: no leading zero, and at most 2^63 - 1. -/
def IsComponent (t : Text) : Prop := IsNumber t ∧ Numeral.value t < 2 ^ 63

/-- Digits with an idle zero before them. -/
def IdleZero (t : Text) : Prop := (∀ c ∈ t, isDigit c) ∧ 1 < t.length ∧ t.head? = some '0'.toUInt8

/-- Identifiers between dots, none of them empty, of letters, digits and hyphens. -/
def IsBuild (t : Text) : Prop := ∀ i ∈ dotIdentifiers t, i ≠ [] ∧ ∀ c ∈ i, ident_char c

/-- Identifiers as in a build, the numeric ones without a leading zero. -/
def IsPrerelease (t : Text) : Prop := IsBuild t ∧ ∀ i ∈ dotIdentifiers t, ¬ IdleZero i

/-- The parts are what the rules ask for. -/
structure Grammatical (p : Parts) : Prop where
  maj : IsComponent p.maj
  min : IsComponent p.min
  pat : IsComponent p.pat
  prerelease : p.prerelease = [] ∨ IsPrerelease p.prerelease
  build : p.build = [] ∨ IsBuild p.build

/-- The fields are the parts. -/
structure Means (p : Parts) (v : SemanticVersion) : Prop where
  major : v.major.toInt = Numeral.value p.maj
  minor : v.minor.toInt = Numeral.value p.min
  patch : v.patch.toInt = Numeral.value p.pat
  prerelease : p.prerelease = v.prerelease
  build : p.build = v.build

/-- The version a text stands for by the rules. -/
def Denotes (s : Text) (v : SemanticVersion) : Prop := ∃ p : Parts, s = p.text ∧ Grammatical p ∧ Means p v

/-! ## Where the parser departs from them -/

/-- The parts that `parse` accepts, if their numbers fit. -/
structure Accepted (p : Parts) : Prop where
  maj : IsNumber p.maj
  min : IsNumber p.min
  pat : p.pat = [] ∨ IsNumber p.pat
  prerelease : Checked p.prerelease
  build : Checked p.build

/-- No patch number, or a dot behind the last identifier. -/
def Loose (p : Parts) : Prop :=
  p.pat = [] ∨ p.prerelease.getLast? = some '.'.toUInt8 ∨ p.build.getLast? = some '.'.toUInt8

/-- The text is accepted against the rules, or is rejected for an idle zero in its build. -/
def Misread (s : Text) : Prop :=
  ∃ p : Parts, s = p.text ∧
    ((Accepted p ∧ Loose p) ∨ (Grammatical p ∧ ∃ i ∈ dotIdentifiers p.build, IdleZero i))

/-! ## Identifiers -/

theorem valid_identifier_iff (i : Text) :
    valid_identifier i ↔ (i ≠ [] ∧ ∀ c ∈ i, ident_char c) ∧ ¬ IdleZero i := by
  simp only [valid_identifier, IdleZero, Bool.and_eq_true, Bool.not_eq_true', Bool.eq_false_iff, ne_eq,
    decide_eq_true_eq, List.all_eq_true, and_assoc]

/-- The last identifier is empty behind a dot at the end. -/
theorem getLast?_dotIdentifiers (s : Text) :
    (dotIdentifiers s).getLast? = some [] ↔ s = [] ∨ s.getLast? = some '.'.toUInt8 := by
  induction s using dot_induction with
  | last a ha =>
    rw [dotIdentifiers_of_not_mem ha, List.getLast?_singleton, Option.some_inj]
    exact (or_iff_left fun h => ha (List.mem_of_getLast? h)).symm
  | append a b ha ih =>
    obtain ⟨i, ids, hids⟩ := List.exists_cons_of_ne_nil (dotIdentifiers_ne_nil b)
    rw [dotIdentifiers_append ha, hids, List.getLast?_cons_cons, ← hids, ih, List.getLast?_append]
    rcases b with _ | ⟨c, b⟩
    · simp
    · simp [List.getLast?_cons_cons]

theorem validIdentifiers_iff (ids : List Text) (hlast : ids.getLast? ≠ some []) :
    validIdentifiers ids ↔ ∀ i ∈ ids, valid_identifier i := by
  induction ids with
  | nil => simp [validIdentifiers]
  | cons i ids ih =>
    have hne : i = [] → ids ≠ [] := by
      rintro rfl rfl
      exact hlast rfl
    have hrest : ids.getLast? ≠ some [] := by
      rcases ids with _ | ⟨j, ids⟩
      · simp
      · rwa [List.getLast?_cons_cons] at hlast
    rw [validIdentifiers.eq_3 i ids hne, Bool.and_eq_true, ih hrest, List.forall_mem_cons]

/-- Without a dot at the end, the check is that of a prerelease. -/
theorem checked_iff (hlast : t.getLast? ≠ some '.'.toUInt8) : Checked t ↔ t = [] ∨ IsPrerelease t := by
  by_cases hne : t = []
  · exact iff_of_true (.inl hne) (.inl hne)
  rw [Checked, or_iff_right hne, or_iff_right hne]
  have hids : (dotIdentifiers t).getLast? ≠ some [] := by
    rw [Ne, getLast?_dotIdentifiers]
    tauto
  rw [valid_dot_identifiers, Bool.and_eq_true, validIdentifiers_iff _ hids]
  simp only [valid_identifier_iff, IsPrerelease, IsBuild, hne, ne_eq, not_false_eq_true, decide_true, true_and]
  exact forall₂_and

theorem IsBuild.getLast?_ne (h : t = [] ∨ IsBuild t) : t.getLast? ≠ some '.'.toUInt8 := by
  rcases h with rfl | h
  · simp
  · intro hdot
    have hmem := List.mem_of_getLast? ((getLast?_dotIdentifiers t).2 (.inr hdot))
    exact (h [] hmem).1 rfl

theorem IsBuild.plus_not_mem (h : t = [] ∨ IsBuild t) : '+'.toUInt8 ∉ t := by
  rcases h with rfl | h
  · exact List.not_mem_nil
  · intro hc
    rcases mem_dotIdentifiers hc with hdot | ⟨i, hi, hmem⟩
    · exact absurd hdot (by decide)
    · exact absurd ((h i hi).2 _ hmem) (by decide)

/-! ## The parts of a text -/

/-- The separators of the version do not stand where it would be cut at them. -/
structure Separated (p : Parts) : Prop where
  maj : Plain p.maj
  min : Plain p.min
  pat : Plain p.pat
  prerelease : '+'.toUInt8 ∉ p.prerelease

theorem behind_inj {c : UInt8} {a a' t t' : Text} (h : a ++ behind c t = a' ++ behind c t') (ha : c ∉ a)
    (ha' : c ∉ a') : a = a' ∧ t = t' := by
  rw [behind, behind] at h
  split_ifs at h with ht ht' ht'
  · rw [List.append_nil, List.append_nil] at h
    exact ⟨h, ht.trans ht'.symm⟩
  · rw [List.append_nil] at h
    exact absurd (h ▸ List.mem_append_right a' List.mem_cons_self) ha
  · rw [List.append_nil] at h
    exact absurd (h ▸ List.mem_append_right a List.mem_cons_self) ha'
  · exact cut_inj h ha ha'

/-- A text has one set of parts. -/
theorem parts_inj (h : p.text = q.text) (hp : Separated p) (hq : Separated q) : p = q := by
  obtain ⟨maj, min, pat, prerelease, build⟩ := p
  obtain ⟨maj', min', pat', prerelease', build'⟩ := q
  obtain ⟨hmaj, hmin, hpat, hpre⟩ := hp
  obtain ⟨hmaj', hmin', hpat', hpre'⟩ := hq
  have htext : maj ++ '.'.toUInt8 :: (min ++ '.'.toUInt8 :: pat) ++ behind '-'.toUInt8 prerelease ++
        behind '+'.toUInt8 build =
      maj' ++ '.'.toUInt8 :: (min' ++ '.'.toUInt8 :: pat') ++ behind '-'.toUInt8 prerelease' ++
        behind '+'.toUInt8 build' := by
    simpa [Parts.text] using h
  obtain ⟨hrest, rfl⟩ := behind_inj htext (plus_not_mem hmaj hmin hpat hpre) (plus_not_mem hmaj' hmin' hpat' hpre')
  obtain ⟨hnumbers, rfl⟩ := behind_inj hrest (dash_not_mem hmaj hmin hpat) (dash_not_mem hmaj' hmin' hpat')
  obtain ⟨rfl, hminpat⟩ := cut_inj hnumbers hmaj.1 hmaj'.1
  obtain ⟨rfl, rfl⟩ := cut_inj hminpat hmin.1 hmin'.1
  rfl

theorem Parts.Cut.separated (h : p.Cut) : Separated p := ⟨h.maj, h.min, h.pat, h.prerelease.plus_not_mem⟩

theorem Grammatical.separated (h : Grammatical p) : Separated p :=
  ⟨plain_of_digits h.maj.1.2.1, plain_of_digits h.min.1.2.1, plain_of_digits h.pat.1.2.1,
    IsBuild.plus_not_mem (h.prerelease.imp id And.left)⟩

/-! ## Accepted texts -/

theorem parse_of_cut (h : p.Cut) :
    parse after p.text = some v ↔ ∃ ns, readNumbers after p.numbers = some ns ∧ p.version ns = v := by
  rw [parse_eq_some]
  constructor
  · rintro ⟨q, hq, hread⟩
    obtain rfl : p = q := Option.some.inj ((cut_eq_some.2 ⟨rfl, h⟩).symm.trans hq)
    exact hread
  · intro hread
    exact ⟨p, cut_eq_some.2 ⟨rfl, h⟩, hread⟩

theorem numbers_of_cut (h : cut s = some p) : numbers s = p.numbers := by
  rw [numbers, h]
  rfl

theorem Accepted.isNumber (h : Accepted p) : ∀ t ∈ p.numbers, IsNumber t := by
  rw [Parts.numbers]
  split_ifs with hnil
  · exact List.forall_mem_cons.2 ⟨h.maj, List.forall_mem_singleton.2 h.min⟩
  · exact List.forall_mem_cons.2 ⟨h.maj, List.forall_mem_cons.2 ⟨h.min, List.forall_mem_singleton.2 (h.pat.resolve_left hnil)⟩⟩

theorem Accepted.cut (h : Accepted p) : p.Cut := by
  refine ⟨plain_of_digits h.maj.2.1, plain_of_digits h.min.2.1, plain_of_digits ?_, h.prerelease, h.build⟩
  rcases h.pat with hnil | hnumber
  · rw [hnil]
    exact List.forall_mem_nil _
  · exact hnumber.2.1

theorem Accepted.parse (h : Accepted p) (hfit : FitThrough p.numbers) (after : AfterOverflow) :
    ∃ v, SemanticVersion.parse after p.text = some v := by
  obtain ⟨ns, hns⟩ := scanAll_numbers hfit h.isNumber
  exact ⟨_, (parse_of_cut h.cut).2 ⟨ns, (readNumbers_fit hfit).2 hns, rfl⟩⟩

/-- Of a text whose numbers fit, the parts that are read are accepted. -/
theorem accepted_of_read (hp : p.Cut) (hfit : FitThrough p.numbers) {ns : List Int64}
    (hns : readNumbers after p.numbers = some ns) : Accepted p ∧ ∀ t ∈ p.numbers, Numeral.value t < 2 ^ 63 := by
  have hread := scanAll_isNumber ((readNumbers_fit hfit).1 hns)
  refine ⟨?_, fun t ht => (hread t ht).2⟩
  rw [Parts.numbers] at hread
  split_ifs at hread with hnil
  · simp only [List.forall_mem_cons] at hread
    obtain ⟨⟨hmaj, _⟩, ⟨hmin, _⟩, _⟩ := hread
    exact ⟨hmaj, hmin, .inl hnil, hp.prerelease, hp.build⟩
  · simp only [List.forall_mem_cons] at hread
    obtain ⟨⟨hmaj, _⟩, ⟨hmin, _⟩, ⟨hpat, _⟩, _⟩ := hread
    exact ⟨hmaj, hmin, .inr hpat, hp.prerelease, hp.build⟩

/-- An accepted text whose numbers fit and whose parts are not loose is one of the grammar. -/
theorem Accepted.grammatical (h : Accepted p) (hlt : ∀ t ∈ p.numbers, Numeral.value t < 2 ^ 63) (hloose : ¬ Loose p) :
    Grammatical p := by
  simp only [Loose, not_or] at hloose
  obtain ⟨hpat, hpre, hbuild⟩ := hloose
  rw [Parts.numbers, if_neg hpat] at hlt
  simp only [List.forall_mem_cons] at hlt
  obtain ⟨hmaj, hmin, hpatch, _⟩ := hlt
  exact ⟨⟨h.maj, hmaj⟩, ⟨h.min, hmin⟩, ⟨h.pat.resolve_left hpat, hpatch⟩, (checked_iff hpre).1 h.prerelease,
    ((checked_iff hbuild).1 h.build).imp id And.left⟩

/-! ## Texts of the grammar -/

theorem Grammatical.not_loose (h : Grammatical p) : ¬ Loose p := by
  rintro (hpat | hdot | hdot)
  · exact h.pat.1.1 hpat
  · exact IsBuild.getLast?_ne (h.prerelease.imp id And.left) hdot
  · exact IsBuild.getLast?_ne h.build hdot

/-- The prerelease passes the check, and the build does if no idle zero stands in it. -/
theorem Grammatical.cut_iff (h : Grammatical p) : p.Cut ↔ ∀ i ∈ dotIdentifiers p.build, ¬ IdleZero i := by
  have hbuild := checked_iff (IsBuild.getLast?_ne h.build)
  constructor
  · intro hcut
    rcases hbuild.1 hcut.build with hnil | hids
    · rw [hnil]
      rintro i hi ⟨_, hlen, _⟩
      obtain rfl : i = [] := List.mem_singleton.1 hi
      cases hlen
    · exact hids.2
  · intro hzero
    obtain ⟨hmaj, hmin, hpat, _⟩ := h.separated
    exact ⟨hmaj, hmin, hpat, (checked_iff (IsBuild.getLast?_ne (h.prerelease.imp id And.left))).2 h.prerelease,
      hbuild.2 (h.build.imp id fun hids => ⟨hids, hzero⟩)⟩

theorem Grammatical.numbers (h : Grammatical p) : p.numbers = [p.maj, p.min, p.pat] := by
  rw [Parts.numbers, if_neg h.pat.1.1]

theorem Grammatical.fitThrough (h : Grammatical p) : FitThrough p.numbers := by
  have hfits : ∀ {t : Text}, IsComponent t → Fits t := fun ht => ht.1.fits_iff.2 ht.2
  rw [h.numbers]
  exact ⟨hfits h.maj, fun _ => ⟨hfits h.min, fun _ => ⟨hfits h.pat, fun _ => trivial⟩⟩⟩

theorem Grammatical.means_iff (h : Grammatical p) (hcut : p.Cut) :
    SemanticVersion.parse after p.text = some v ↔ Means p v := by
  have hread : ∀ ns, readNumbers after p.numbers = some ns ↔ scanAll [p.maj, p.min, p.pat] = .value ns := fun ns => by
    rw [readNumbers_fit h.fitThrough, h.numbers]
  simp only [parse_of_cut hcut, hread]
  constructor
  · rintro ⟨ns, hns, rfl⟩
    exact ⟨scanAll_exact hns 0, scanAll_exact hns 1, scanAll_exact hns 2, rfl, rfl⟩
  · rintro ⟨hmajor, hminor, hpatch, hpre, hbuild⟩
    have hvalue : ∀ {t : Text} {n : Int64}, IsComponent t → n.toInt = Numeral.value t → parse_u64 t = .value n :=
      fun ht hn => parse_u64_value.2 ⟨ht.1, ht.2, hn⟩
    refine ⟨[v.major, v.minor, v.patch], scanAll_value.2 ?_, ?_⟩
    · exact .cons (hvalue h.maj hmajor) (.cons (hvalue h.min hminor) (.cons (hvalue h.pat hpatch) .nil))
    · rw [Parts.version, hpre, hbuild]
      rfl

theorem Grammatical.means (h : Grammatical p) : ∃ v, Means p v := by
  have hvalue : ∀ {t : Text}, IsComponent t → (Int64.ofNat (Numeral.value t)).toInt = Numeral.value t :=
    fun ht => Int64.toInt_ofNat_of_lt ht.2
  exact ⟨⟨_, _, _, p.prerelease, p.build⟩, hvalue h.maj, hvalue h.min, hvalue h.pat, rfl, rfl⟩

/-- Where a number overflows, some outcome is not what the text stands for. -/
theorem overflow_misleads (h : ¬ FitThrough (numbers s)) :
    ∃ after v, parse after s = some v ∧ v.major.toInt = -1 := by
  obtain ⟨p, hcut⟩ : ∃ p, cut s = some p := by
    by_contra hnone
    rw [numbers, Option.eq_none_iff_forall_ne_some.2 fun p hp => hnone ⟨p, hp⟩] at h
    exact h trivial
  rw [numbers_of_cut hcut] at h
  exact ⟨fun _ => some [-1], _, parse_eq_some.2 ⟨p, hcut, [-1], readNumbers_overflow h, rfl⟩, rfl⟩

/-- However an overflow comes out, `parse` agrees with the rules on a text, in what it
accepts and in what it returns, if and only if no number overflows, and the text is not of
the loose kinds and has no idle zero in its build. -/
theorem parse_grammar_iff (s : Text) :
    (∀ after v, parse after s = some v ↔ Denotes s v) ↔ FitThrough (numbers s) ∧ ¬ Misread s := by
  constructor
  · intro h
    have hfit : FitThrough (numbers s) := by
      by_contra hover
      obtain ⟨after, v, hv, hmajor⟩ := overflow_misleads hover
      obtain ⟨p, _, _, hmeans⟩ := (h after v).1 hv
      have hvalue := hmeans.major
      omega
    refine ⟨hfit, ?_⟩
    rintro ⟨p, rfl, ⟨hacc, hloose⟩ | ⟨hgram, i, hi, hzero⟩⟩
    · rw [numbers_of_cut (cut_eq_some.2 ⟨rfl, hacc.cut⟩)] at hfit
      obtain ⟨v, hv⟩ := hacc.parse hfit fun _ => none
      obtain ⟨q, htext, hgram, _⟩ := (h _ v).1 hv
      obtain rfl := parts_inj htext hacc.cut.separated hgram.separated
      exact hgram.not_loose hloose
    · obtain ⟨v, hmeans⟩ := hgram.means
      obtain ⟨q, hcut, _⟩ := parse_eq_some.1 ((h (fun _ => none) v).2 ⟨p, rfl, hgram, hmeans⟩)
      obtain ⟨htext, hq⟩ := cut_eq_some.1 hcut
      obtain rfl := parts_inj htext hgram.separated hq.separated
      exact hgram.cut_iff.1 hq i hi hzero
  · rintro ⟨hfit, h⟩ after v
    constructor
    · intro hv
      obtain ⟨p, hcut, ns, hns, _⟩ := parse_eq_some.1 hv
      rw [numbers_of_cut hcut] at hfit
      obtain ⟨rfl, hp⟩ := cut_eq_some.1 hcut
      obtain ⟨hacc, hlt⟩ := accepted_of_read hp hfit hns
      have hgram := hacc.grammatical hlt fun hloose => h ⟨p, rfl, .inl ⟨hacc, hloose⟩⟩
      exact ⟨p, rfl, hgram, (hgram.means_iff hp).1 hv⟩
    · rintro ⟨p, rfl, hgram, hmeans⟩
      have hp := hgram.cut_iff.2 fun i hi hzero => h ⟨p, rfl, .inr ⟨hgram, i, hi, hzero⟩⟩
      exact (hgram.means_iff hp).2 hmeans

/-- A dot behind the last identifier of the prerelease is let through. -/
theorem parse_trailing_dot : ¬ ∀ after v, parse after (text "1.0.0-a.") = some v ↔ Denotes (text "1.0.0-a.") v := by
  intro h
  have hparse : parse (fun _ => none) (text "1.0.0-a.") = some { major := 1, prerelease := text "a." } := by decide +kernel
  obtain ⟨p, htext, hgram, hmeans⟩ := (h _ _).1 hparse
  exact IsBuild.getLast?_ne (hgram.prerelease.imp id And.left) (hmeans.prerelease ▸ by decide)

end SemanticVersion

end RuntimeRegistry
