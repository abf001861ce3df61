/-
  Overwriting fields.

  The fields of a layout are well formed if they are in order, apart from each other and within the address
  space.  Such layouts are determined by which fields they have (`Layout.WellFormed.fields_ext`).
  Overwriting keeps them well formed: the new field is there, and of the others those that share no
  byte with it (`Layout.mem_put`, `Layout.WellFormed.put`).
-/
import ClassRecovery.Layout
import Mathlib.Data.List.Perm.Subperm

namespace ClassRecovery

/-! ## Bisection -/

/-- **Bisection finds the end of the front part** of the positions, if `below` holds of a front
    part only. -/
theorem bisect_spec {below : Nat → Bool} (hfront : ∀ i j, i ≤ j → below j = true → below i = true)
    (base size : Nat) :
    bisect below base size ≤ base + size ∧
      (∀ i, base ≤ i → i < bisect below base size → below i = true) ∧
      ∀ i, bisect below base size ≤ i → i < base + size → below i = false := by
  fun_induction bisect below base size with
  | case1 base size hsize hone =>
    simp only [Bool.and_eq_true, decide_eq_true_eq] at hone
    refine ⟨by omega, fun i hle hlt => ?_, fun i hle hlt => by omega⟩
    rw [show i = base by omega]
    exact hone.2
  | case2 base size hsize hone =>
    refine ⟨by omega, fun i hle hlt => by omega, fun i hle hlt => ?_⟩
    have hsize : size = 1 := by omega
    rw [show i = base by omega]
    simpa [hsize] using hone
  | case3 base size hsize half ih =>
    have hhalf : half + half ≤ size := by omega
    cases hbelow : below (base + half) with
    | true =>
      simp only [hbelow, ↓reduceDIte, ↓reduceIte] at ih ⊢
      refine ⟨by omega, fun i hle hlt => ?_, fun i hle hlt => ih.2.2 i hle (by omega)⟩
      by_cases hi : base + half ≤ i
      · exact ih.2.1 i hi hlt
      · exact hfront i _ (by omega) hbelow
    | false =>
      simp only [hbelow, Bool.false_eq_true, ↓reduceDIte, ↓reduceIte] at ih ⊢
      refine ⟨by omega, ih.2.1, fun i hle hlt => ?_⟩
      by_cases hi : i < base + (size - half)
      · exact ih.2.2 i hle hi
      · by_contra hnot
        rw [hfront (base + half) i (by omega) (by simpa using hnot)] at hbelow
        cases hbelow

/-! ## Fields -/

namespace Field

theorem toNat_stop_le (f : Field) : f.stop.toNat ≤ f.offset.toNat + f.size.toNat := by
  rw [stop, toNat_saturatingAdd]
  exact Nat.min_le_left _ _

/-- The field has bytes, and they are within the address space. -/
def Fits (f : Field) : Prop := f.size ≠ 0 ∧ (checkedAdd f.offset f.size).isSome = true

/-- The fields share a byte. -/
def Meets (f g : Field) : Prop := f.overlaps g.offset g.stop = true

theorem Fits.stop_eq {f : Field} (hf : f.Fits) : checkedAdd f.offset f.size = some f.stop := by
  obtain ⟨s, hs⟩ := Option.isSome_iff_exists.mp hf.2
  simp [stop, saturatingAdd, hs]

theorem Fits.toNat_stop {f : Field} (hf : f.Fits) :
    f.stop.toNat = f.offset.toNat + f.size.toNat :=
  checkedAdd_eq_some_iff.mp hf.stop_eq

theorem Fits.lt_stop {f : Field} (hf : f.Fits) : f.offset.toNat < f.stop.toNat := by
  have hsize : f.size.toNat ≠ 0 := fun h => hf.1 (UInt64.toNat_inj.mp h)
  rw [hf.toNat_stop]
  omega

theorem meets_iff {f g : Field} :
    f.Meets g ↔ f.offset.toNat < g.stop.toNat ∧ g.offset.toNat < f.stop.toNat := by
  simp [Meets, overlaps, UInt64.lt_iff_toNat_lt]

end Field

/-! ## Lists of fields -/

namespace Layout

/-- The fields are in order and share no byte. -/
def Apart (fields : List Field) : Prop :=
  fields.Pairwise fun f g => f.stop.toNat ≤ g.offset.toNat

/-- Fields that are apart are determined by which they are. -/
theorem Apart.ext {fields fields' : List Field} (h : Apart fields) (h' : Apart fields')
    (hfits : ∀ f ∈ fields, f.Fits) (hmem : ∀ f, f ∈ fields ↔ f ∈ fields') : fields = fields' := by
  have hnodup {l : List Field} (hl : Apart l) (hfits : ∀ f ∈ l, f.Fits) : l.Nodup := by
    refine hl.imp_of_mem fun {f g} hf _ hle heq => ?_
    subst heq
    have := (hfits f hf).lt_stop
    omega
  have hfits' : ∀ f ∈ fields', f.Fits := fun f hf => hfits f ((hmem f).mpr hf)
  have hperm : fields.Perm fields' :=
    (List.perm_ext_iff_of_nodup (hnodup h hfits) (hnodup h' hfits')).mpr hmem
  refine hperm.eq_of_pairwise (fun f g hf _ hle hle' => ?_) h h'
  have := (hfits f hf).lt_stop
  have := (hfits' g ‹_›).lt_stop
  omega

theorem mem_place {f g : Field} {fields : List Field} :
    g ∈ place f fields ↔ g = f ∨ g ∈ fields := by
  simp only [place, List.mem_append, List.mem_cons]
  rw [or_left_comm, ← List.mem_append, List.take_append_drop]

/-- **Among fields in order, a field is placed** behind those with a smaller offset and before the others. -/
theorem exists_place {f : Field} {fields : List Field}
    (hsorted : fields.Pairwise fun g g' => g.offset ≤ g'.offset) :
    ∃ front back, fields = front ++ back ∧ place f fields = front ++ f :: back ∧
      (∀ g ∈ front, g.offset < f.offset) ∧ ∀ g ∈ back, f.offset ≤ g.offset := by
  have hfront : ∀ i j : Nat, i ≤ j → (fields[j]?.any fun g : Field => g.offset < f.offset) = true →
      (fields[i]?.any fun g : Field => g.offset < f.offset) = true := by
    intro i j hij hj
    rcases Nat.lt_or_eq_of_le hij with hij | rfl
    · obtain ⟨g, hg, hlt⟩ := (Option.any_eq_true ..).mp hj
      obtain ⟨hjlen, rfl⟩ := List.getElem?_eq_some_iff.mp hg
      have hle := List.pairwise_iff_getElem.mp hsorted i j (by omega) hjlen hij
      rw [List.getElem?_eq_getElem (by omega), Option.any_some, decide_eq_true_eq]
      exact UInt64.lt_of_le_of_lt hle (of_decide_eq_true hlt)
    · exact hj
  obtain ⟨-, hbelow, habove⟩ := bisect_spec hfront 0 fields.length
  simp only [place]
  generalize bisect _ 0 fields.length = k at hbelow habove
  refine ⟨fields.take k, fields.drop k, (List.take_append_drop k fields).symm, rfl, fun g hg => ?_,
    fun g hg => ?_⟩
  · obtain ⟨i, hi, rfl⟩ := List.mem_take_iff_getElem.mp hg
    have hlt := hbelow i (Nat.zero_le i) (by omega)
    rwa [List.getElem?_eq_getElem (by omega), Option.any_some, decide_eq_true_eq] at hlt
  · obtain ⟨i, hi, rfl⟩ := List.mem_drop_iff_getElem.mp hg
    have hge := habove (k + i) (by omega) (by omega)
    rw [List.getElem?_eq_getElem (by omega), Option.any_some, decide_eq_false_iff_not] at hge
    exact UInt64.not_lt.mp hge

/-- A field is placed in order among fields that it does not meet. -/
theorem Apart.place {f : Field} {fields : List Field} (h : Apart fields)
    (hfits : ∀ g ∈ fields, g.Fits) (hf : f.Fits) (hmeets : ∀ g ∈ fields, ¬ g.Meets f) :
    Apart (place f fields) := by
  have hsorted : fields.Pairwise fun g g' => g.offset ≤ g'.offset := by
    refine h.imp_of_mem fun {g g'} hg _ hle => UInt64.le_iff_toNat_le.mpr ?_
    have := (hfits g hg).lt_stop
    omega
  obtain ⟨front, back, rfl, hplace, hlow, hhigh⟩ := exists_place (f := f) hsorted
  simp only [List.mem_append, Field.meets_iff] at hfits hmeets
  have hstop := hf.lt_stop
  obtain ⟨hfront, hback, hcross⟩ := List.pairwise_append.mp h
  rw [hplace]
  refine List.pairwise_append.mpr ⟨hfront, List.pairwise_cons.mpr ⟨fun g hg => ?_, hback⟩,
    fun g hg g' hg' => ?_⟩
  · have := hmeets g (.inr hg)
    have := (hfits g (.inr hg)).lt_stop
    have := UInt64.le_iff_toNat_le.mp (hhigh g hg)
    omega
  · rcases List.mem_cons.mp hg' with rfl | hg'
    · have := hmeets g (.inl hg)
      have := UInt64.lt_iff_toNat_lt.mp (hlow g hg)
      omega
    · exact hcross g hg g' hg'

/-! ## Layouts -/

/-- The fields are in order, apart from each other and within the address space. -/
structure WellFormed (l : Layout) : Prop where
  fits : ∀ f ∈ l.fields, f.Fits
  apart : Apart l.fields

/-- The layout with a field in place of all fields that it meets. -/
def put (l : Layout) (f : Field) : Layout :=
  { l with
    fields := place f (l.fields.filter fun g => !g.overlaps f.offset f.stop)
    size := max l.size f.stop }

theorem overwrite_eq {l : Layout} {f : Field} (hf : f.Fits) :
    l.overwrite f = .ok (l.fields.filter (·.overlaps f.offset f.stop), l.put f) := by
  rw [overwrite, if_neg hf.1, hf.stop_eq]
  simp only [List.partition_eq_filter_filter]
  rfl

theorem fits_of_overwrite {l : Layout} {f : Field} {r : List Field × Layout}
    (h : l.overwrite f = .ok r) : f.Fits := by
  unfold overwrite at h
  split at h
  · cases h
  · next hsize =>
    split at h
    · cases h
    · next hstop => exact ⟨hsize, by rw [hstop]; rfl⟩

/-- **The fields after overwriting.** -/
theorem mem_put {l : Layout} {f g : Field} :
    g ∈ (l.put f).fields ↔ g = f ∨ (g ∈ l.fields ∧ ¬ g.Meets f) := by
  simp [put, mem_place, Field.Meets]

/-- **Overwriting keeps a layout well formed.** -/
theorem WellFormed.put {l : Layout} (h : l.WellFormed) {f : Field} (hf : f.Fits) :
    (l.put f).WellFormed where
  fits g hg := by
    rcases mem_put.mp hg with rfl | ⟨hg, -⟩
    · exact hf
    · exact h.fits g hg
  apart := by
    refine Apart.place (h.apart.sublist List.filter_sublist)
      (fun g hg => h.fits g (List.mem_of_mem_filter hg)) hf fun g hg => ?_
    simpa [Field.Meets] using (List.mem_filter.mp hg).2

/-- Well-formed layouts with the same fields. -/
theorem WellFormed.fields_ext {l l' : Layout} (h : l.WellFormed) (h' : l'.WellFormed)
    (hmem : ∀ f, f ∈ l.fields ↔ f ∈ l'.fields) : l.fields = l'.fields :=
  h.apart.ext h'.apart h.fits hmem

theorem wellFormed_empty (name : String) (size alignment : Word) :
    (empty name size alignment).WellFormed := ⟨by simp [empty], .nil⟩

/-! ## Overwriting several fields -/

/-- The layout with fields put in place one after the other. -/
def putAll (l : Layout) (fields : List Field) : Layout := fields.foldl put l

/-- `g` is one of the fields, and none behind it meets it. -/
def Survives (g : Field) : List Field → Prop
  | [] => False
  | f :: rest => (g = f ∧ ∀ f' ∈ rest, ¬ g.Meets f') ∨ Survives g rest

/-- Fields that do not meet each other all survive. -/
theorem survives_of_pairwise {g : Field} {fields : List Field}
    (h : fields.Pairwise fun f f' => ¬ f.Meets f') (hg : g ∈ fields) : Survives g fields := by
  induction fields with
  | nil => cases hg
  | cons f rest ih =>
    obtain ⟨hf, hrest⟩ := List.pairwise_cons.mp h
    rcases List.mem_cons.mp hg with rfl | hg
    · exact .inl ⟨rfl, hf⟩
    · exact .inr (ih hrest hg)

theorem Survives.mem {g : Field} {fields : List Field} (h : Survives g fields) : g ∈ fields := by
  induction fields with
  | nil => exact h.elim
  | cons f rest ih =>
    rcases h with ⟨rfl, -⟩ | h
    · exact List.mem_cons_self
    · exact List.mem_cons_of_mem _ (ih h)

/-- Of two lists of fields, those of the first survive that meet none of the second. -/
theorem survives_append {g : Field} {fields later : List Field} :
    Survives g (fields ++ later) ↔
      (Survives g fields ∧ ∀ f ∈ later, ¬ g.Meets f) ∨ Survives g later := by
  induction fields with
  | nil => simp [Survives]
  | cons f rest ih =>
    rw [List.cons_append, Survives, ih, Survives]
    simp only [List.mem_append]
    constructor
    · rintro (⟨rfl, hrest⟩ | ⟨hg, hlater⟩ | hg)
      · exact .inl ⟨.inl ⟨rfl, fun f' hf' => hrest f' (.inl hf')⟩, fun f' hf' => hrest f' (.inr hf')⟩
      · exact .inl ⟨.inr hg, hlater⟩
      · exact .inr hg
    · rintro (⟨⟨rfl, hrest⟩ | hg, hlater⟩ | hg)
      · exact .inl ⟨rfl, fun f' hf' => hf'.elim (hrest f') (hlater f')⟩
      · exact .inr (.inl ⟨hg, hlater⟩)
      · exact .inr (.inr hg)

theorem mem_putAll {l : Layout} {fields : List Field} {g : Field} :
    g ∈ (l.putAll fields).fields ↔
      Survives g fields ∨ (g ∈ l.fields ∧ ∀ f ∈ fields, ¬ g.Meets f) := by
  induction fields generalizing l with
  | nil => simp [putAll, Survives]
  | cons f rest ih =>
    rw [putAll, List.foldl_cons, ← putAll, ih, mem_put]
    simp only [Survives, List.mem_cons, forall_eq_or_imp]
    tauto

theorem WellFormed.putAll {l : Layout} (h : l.WellFormed) {fields : List Field}
    (hfields : ∀ f ∈ fields, f.Fits) : (l.putAll fields).WellFormed := by
  induction fields generalizing l with
  | nil => exact h
  | cons f rest ih =>
    simp only [List.mem_cons, forall_eq_or_imp] at hfields
    exact ih (h.put hfields.1) hfields.2

theorem le_size_putAll (l : Layout) (fields : List Field) :
    l.size.toNat ≤ (l.putAll fields).size.toNat ∧
      ∀ f ∈ fields, f.stop.toNat ≤ (l.putAll fields).size.toNat := by
  induction fields generalizing l with
  | nil => simp [putAll]
  | cons f rest ih =>
    obtain ⟨hsize, hrest⟩ := ih (l.put f)
    have hput : (l.put f).size.toNat = max l.size.toNat f.stop.toNat := toNat_max _ _
    rw [putAll, List.foldl_cons, ← putAll]
    simp only [List.mem_cons, forall_eq_or_imp]
    exact ⟨by omega, by omega, hrest⟩

theorem put_size_eq {l : Layout} {f : Field} (h : f.stop.toNat ≤ l.size.toNat) :
    (l.put f).size = l.size := by
  apply UInt64.toNat_inj.mp
  exact (toNat_max _ _).trans (Nat.max_eq_left h)

theorem putAll_size_eq {l : Layout} {fields : List Field}
    (h : ∀ f ∈ fields, f.stop.toNat ≤ l.size.toNat) : (l.putAll fields).size = l.size := by
  induction fields generalizing l with
  | nil => rfl
  | cons f rest ih =>
    simp only [List.mem_cons, forall_eq_or_imp] at h
    have hput := put_size_eq h.1
    rw [putAll, List.foldl_cons, ← putAll, ih (by rw [hput]; exact h.2), hput]

theorem putAll_name (l : Layout) (fields : List Field) : (l.putAll fields).name = l.name := by
  induction fields generalizing l with
  | nil => rfl
  | cons f rest ih => exact ih (l.put f)

theorem putAll_alignment (l : Layout) (fields : List Field) :
    (l.putAll fields).alignment = l.alignment := by
  induction fields generalizing l with
  | nil => rfl
  | cons f rest ih => exact ih (l.put f)

end Layout

end ClassRecovery
