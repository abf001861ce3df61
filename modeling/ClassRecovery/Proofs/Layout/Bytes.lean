/-
  Layouts, byte by byte.

  A layout is orderly if its fields have bytes, are in order and share no byte; a field may reach beyond the
  address space.  Putting a field in place of others then is an exact overwrite (`Layout.Overwritten`): out go the
  fields that share a byte with it and no others, and every byte shows the new field, or nothing any more, or what
  it showed before.  So whatever is written to a layout without fields, the fields stay orderly and within its
  size, and the one that was put in place last is intact (`Layout.overwrite_exact`).
-/
import ClassRecovery.Proofs.Layout.Overwrite
import ClassRecovery.Proofs.Offsets.Spans
import Mathlib.Data.List.Find
import Mathlib.Data.List.Pairwise

namespace ClassRecovery

/-! ## Bytes of fields -/

namespace Field

/-- The bytes of a field. -/
def span (f : Field) : Span := ⟨f.offset, f.size⟩

theorem not_meets_of_disjoint {f g : Field} (hpos : 0 < f.size.toNat) (hpos' : 0 < g.size.toNat)
    (hd : Disjoint f.span.bytes g.span.bytes) : ¬ f.Meets g := by
  rw [meets_iff]
  have hstop := f.toNat_stop_le
  have hstop' := g.toNat_stop_le
  simp only [Span.bytes, Span.stop, span, Set.Ico_disjoint_Ico] at hd
  omega

theorem mem_bytes_iff {f : Field} {b : ℕ} :
    b ∈ f.span.bytes ↔ f.offset.toNat ≤ b ∧ b < f.offset.toNat + f.size.toNat := Iff.rfl

instance (f : Field) (b : ℕ) : Decidable (b ∈ f.span.bytes) := decidable_of_iff _ mem_bytes_iff.symm

/-- The fields have a byte in common. -/
def Shares (f g : Field) : Prop := ∃ b, b ∈ f.span.bytes ∧ b ∈ g.span.bytes

theorem shares_iff {f g : Field} :
    f.Shares g ↔ max f.offset.toNat g.offset.toNat < min f.span.stop g.span.stop := by
  constructor
  · rintro ⟨b, ⟨hlow, hhigh⟩, hlow', hhigh'⟩
    exact Nat.lt_of_le_of_lt (Nat.max_le.mpr ⟨hlow, hlow'⟩) (Nat.lt_min.mpr ⟨hhigh, hhigh'⟩)
  · intro hlt
    obtain ⟨hhigh, hhigh'⟩ := Nat.lt_min.mp hlt
    exact ⟨_, ⟨Nat.le_max_left _ _, hhigh⟩, Nat.le_max_right _ _, hhigh'⟩

instance (f g : Field) : Decidable (f.Shares g) := decidable_of_iff _ shares_iff.symm

theorem Shares.symm {f g : Field} (h : f.Shares g) : g.Shares f := by
  obtain ⟨b, hf, hg⟩ := h
  exact ⟨b, hg, hf⟩

instance : Std.Symm fun f g : Field => ¬ f.Shares g := ⟨fun _ _ hnot hshares => hnot hshares.symm⟩

/-- A field fits if it has bytes, and none of them is beyond the address space. -/
theorem fits_iff {f : Field} : f.Fits ↔ f.size ≠ 0 ∧ f.span.stop < UInt64.size := by
  refine and_congr_right fun _ => ?_
  rw [← Option.ne_none_iff_isSome, ne_eq, checkedAdd_eq_none_iff]
  exact Nat.not_le

theorem toNat_size_pos {f : Field} (h : f.size ≠ 0) : 0 < f.size.toNat :=
  Nat.pos_of_ne_zero fun hzero => h (UInt64.toNat_inj.mp hzero)

/-- The stop of a field is capped at the end of the address space. -/
theorem toNat_stop_eq (f : Field) : f.stop.toNat = min f.span.stop maxWord.toNat :=
  toNat_saturatingAdd f.offset f.size

/-- **A field that fits overlaps with those that it shares a byte with**, also where their stops are capped:
    none of its own bytes is the last of the address space. -/
theorem overlaps_iff_shares {f g : Field} (hf : f.Fits) (hg : g.size ≠ 0) :
    g.overlaps f.offset f.stop = true ↔ g.Shares f := by
  change g.Meets f ↔ _
  obtain ⟨hsize, hstop⟩ := fits_iff.mp hf
  have hpos := toNat_size_pos hsize
  have hpos' := toNat_size_pos hg
  have hlast : maxWord.toNat + 1 = UInt64.size := rfl
  rw [meets_iff, shares_iff, toNat_stop_eq, toNat_stop_eq]
  simp only [Span.stop, span] at hstop ⊢
  omega

/-! ## The field at a byte -/

/-- Whether the field is shown at the byte. -/
def showsAt (b : Word) (f : Field) : Bool := f.offset ≤ b && b < f.stop

theorem mem_bytes_of_showsAt {f : Field} {b : Word} (h : f.showsAt b = true) :
    b.toNat ∈ f.span.bytes := by
  simp only [showsAt, Bool.and_eq_true, decide_eq_true_eq, UInt64.le_iff_toNat_le,
    UInt64.lt_iff_toNat_lt] at h
  exact ⟨h.1, Nat.lt_of_lt_of_le h.2 f.toNat_stop_le⟩

theorem showsAt_of_mem_bytes {f : Field} {b : Word} (hf : f.Fits) (h : b.toNat ∈ f.span.bytes) :
    f.showsAt b = true := by
  simp only [showsAt, Bool.and_eq_true, decide_eq_true_eq, UInt64.le_iff_toNat_le,
    UInt64.lt_iff_toNat_lt, hf.toNat_stop]
  exact h

end Field

namespace Layout

/-! ## Orderly layouts -/

/-- The fields have bytes, are in order and share no byte. -/
structure Orderly (l : Layout) : Prop where
  filled : ∀ f ∈ l.fields, f.size ≠ 0
  sorted : l.fields.Pairwise fun f g => f.offset ≤ g.offset
  disjoint : l.fields.Pairwise fun f g => ¬ f.Shares g

theorem orderly_empty (name : String) (size alignment : Word) :
    (empty name size alignment).Orderly := ⟨by simp [empty], .nil, .nil⟩

/-- No two fields of an orderly layout have a byte in common. -/
theorem Orderly.eq_of_mem_bytes {l : Layout} (hl : l.Orderly) {f g : Field} (hf : f ∈ l.fields)
    (hg : g ∈ l.fields) {b : ℕ} (hb : b ∈ f.span.bytes) (hb' : b ∈ g.span.bytes) : f = g := by
  by_contra hne
  exact hl.disjoint.forall hf hg hne ⟨b, hb, hb'⟩

theorem fieldAt?_eq_none {l : Layout} {b : Word} (h : ∀ g ∈ l.fields, b.toNat ∉ g.span.bytes) :
    l.fieldAt? b = none :=
  List.find?_eq_none.mpr fun g hg hshows => h g hg (Field.mem_bytes_of_showsAt hshows)

/-- A field that fits is shown at each of its bytes. -/
theorem Orderly.fieldAt?_eq_some {l : Layout} (hl : l.Orderly) {f : Field} (hf : f ∈ l.fields)
    (hfits : f.Fits) {b : Word} (hb : b.toNat ∈ f.span.bytes) : l.fieldAt? b = some f := by
  obtain ⟨g, hg⟩ := Option.isSome_iff_exists.mp
    (List.find?_isSome.mpr ⟨f, hf, Field.showsAt_of_mem_bytes hfits hb⟩)
  have hshown := Field.mem_bytes_of_showsAt (List.find?_some hg)
  obtain rfl := hl.eq_of_mem_bytes (List.mem_of_find?_eq_some hg) hf hshown hb
  exact hg

/-! ## Putting one field in place -/

/-- What it is for the layout `l'` to be `l` with the field `f` in place of all fields that share a byte
    with it, which are `evicted`. -/
structure Overwritten (l : Layout) (f : Field) (evicted : List Field) (l' : Layout) : Prop where
  /-- In their order. -/
  evicted_eq : evicted = l.fields.filter fun g => g.Shares f
  /-- The others, in their order, and the new field among them. -/
  fields_eq : ∃ front back, l.fields.filter (fun g => ¬ g.Shares f) = front ++ back ∧
    l'.fields = front ++ f :: back
  orderly : l'.Orderly
  size_eq : l'.size.toNat = max l.size.toNat f.span.stop
  title_eq : l'.name = l.name ∧ l'.alignment = l.alignment
  written : ∀ b : Word, b.toNat ∈ f.span.bytes → l'.fieldAt? b = some f
  cleared : ∀ b : Word, b.toNat ∉ f.span.bytes → (∃ g ∈ evicted, b.toNat ∈ g.span.bytes) →
    l'.fieldAt? b = none
  untouched : ∀ b : Word, b.toNat ∉ f.span.bytes → (∀ g ∈ evicted, b.toNat ∉ g.span.bytes) →
    l'.fieldAt? b = l.fieldAt? b

section
variable {l : Layout} (hl : l.Orderly) {f : Field} (hf : f.Fits)
include hl hf

/-- The fields that stay, and the new one among them. -/
theorem Orderly.exists_put : ∃ front back,
    l.fields.filter (fun g => ¬ g.Shares f) = front ++ back ∧ (l.put f).fields = front ++ f :: back ∧
      (∀ g ∈ front, g.offset < f.offset) ∧ ∀ g ∈ back, f.offset ≤ g.offset := by
  have hkept : l.fields.filter (fun g => !g.overlaps f.offset f.stop) =
      l.fields.filter fun g => ¬ g.Shares f := by
    refine List.filter_congr fun g hg => ?_
    rw [Bool.eq_iff_iff, Bool.not_eq_true', decide_eq_true_iff, ← Bool.not_eq_true,
      Field.overlaps_iff_shares hf (hl.filled g hg)]
  have hsorted := hl.sorted.sublist (List.filter_sublist (p := fun g => ¬ g.Shares f))
  obtain ⟨front, back, hsplit, hplace, hlow, hhigh⟩ := exists_place (f := f) hsorted
  refine ⟨front, back, hsplit, ?_, hlow, hhigh⟩
  rw [put, hkept, hplace]

/-- **Putting a field in place keeps a layout orderly.** -/
theorem Orderly.put : (l.put f).Orderly := by
  obtain ⟨front, back, hsplit, hput, hlow, hhigh⟩ := hl.exists_put hf
  have hkept : (front ++ back).Sublist l.fields := hsplit ▸ List.filter_sublist
  have hclear : ∀ g ∈ front ++ back, ¬ g.Shares f := fun g hg => by
    rw [← hsplit] at hg
    simpa using (List.mem_filter.mp hg).2
  have hsorted := List.pairwise_append.mp (hl.sorted.sublist hkept)
  have hdisjoint := List.pairwise_append.mp (hl.disjoint.sublist hkept)
  refine ⟨fun g hg => ?_, ?_, ?_⟩
  · rcases mem_put.mp hg with rfl | ⟨hg, -⟩
    · exact hf.1
    · exact hl.filled g hg
  · rw [hput]
    refine List.pairwise_append.mpr ⟨hsorted.1, List.pairwise_cons.mpr ⟨hhigh, hsorted.2.1⟩,
      fun g hg g' hg' => ?_⟩
    rcases List.mem_cons.mp hg' with rfl | hg'
    · exact UInt64.le_of_lt (hlow g hg)
    · exact hsorted.2.2 g hg g' hg'
  · rw [hput]
    refine List.pairwise_append.mpr ⟨hdisjoint.1, List.pairwise_cons.mpr
      ⟨fun g hg hshares => hclear g (List.mem_append_right _ hg) hshares.symm, hdisjoint.2.1⟩,
      fun g hg g' hg' => ?_⟩
    rcases List.mem_cons.mp hg' with rfl | hg'
    · exact hclear g (List.mem_append_left _ hg)
    · exact hdisjoint.2.2 g hg g' hg'

/-- What shares no byte with the new field is found as before. -/
theorem Orderly.find?_put {p : Field → Bool} (hnew : p f = false)
    (hevicted : ∀ g ∈ l.fields, g.Shares f → p g = false) :
    (l.put f).fields.find? p = l.fields.find? p := by
  obtain ⟨front, back, hsplit, hput, -⟩ := hl.exists_put hf
  have hkept : (front ++ back).find? p = l.fields.find? p := by
    rw [← hsplit, List.find?_filter]
    refine List.find?_congr fun g hg => ?_
    by_cases hshares : g.Shares f
    · simp [hevicted g hg hshares]
    · simp [hshares]
  rw [hput, ← hkept, List.find?_append, List.find?_append, List.find?_cons, hnew]

/-- **Putting a field in place is an exact overwrite.** -/
theorem Orderly.overwritten :
    ∃ evicted, l.overwrite f = .ok (evicted, l.put f) ∧ l.Overwritten f evicted (l.put f) := by
  have hevicted : l.fields.filter (·.overlaps f.offset f.stop) = l.fields.filter fun g => g.Shares f := by
    refine List.filter_congr fun g hg => ?_
    rw [Bool.eq_iff_iff, decide_eq_true_iff, Field.overlaps_iff_shares hf (hl.filled g hg)]
  have hput := hl.put hf
  have hmem : f ∈ (l.put f).fields := mem_put.mpr (.inl rfl)
  have of_mem {g : Field} (hg : g ∈ l.fields.filter fun g => g.Shares f) : g ∈ l.fields ∧ g.Shares f := by
    simpa using List.mem_filter.mp hg
  refine ⟨_, hevicted ▸ overwrite_eq hf, rfl, ?_, hput, ?_, ⟨rfl, rfl⟩,
    fun b hb => hput.fieldAt?_eq_some hmem hf hb, fun b hb hcovered => ?_, fun b hb hclear => ?_⟩
  · obtain ⟨front, back, hsplit, hfields, -⟩ := hl.exists_put hf
    exact ⟨front, back, hsplit, hfields⟩
  · exact (toNat_max _ _).trans (congrArg (max _) hf.toNat_stop)
  · obtain ⟨g, hg, hbg⟩ := hcovered
    obtain ⟨hg, hshares⟩ := of_mem hg
    refine fieldAt?_eq_none fun g' hg' hbg' => ?_
    rcases mem_put.mp hg' with rfl | ⟨hg', hmeets⟩
    · exact hb hbg'
    · obtain rfl := hl.eq_of_mem_bytes hg' hg hbg' hbg
      exact hmeets ((Field.overlaps_iff_shares hf (hl.filled g' hg)).mpr hshares)
  · have hidden {g : Field} (hg : b.toNat ∉ g.span.bytes) : g.showsAt b = false :=
      Bool.eq_false_iff.mpr fun hshows => hg (Field.mem_bytes_of_showsAt hshows)
    refine hl.find?_put hf (hidden hb) fun g hg hshares => hidden (hclear g ?_)
    exact List.mem_filter.mpr ⟨hg, by simpa using hshares⟩

end

/-- A field that does not fit cannot be put in place, and the first reason is told. -/
theorem overwrite_eq_error_iff {l : Layout} {f : Field} {e : LayoutError} :
    l.overwrite f = .error e ↔ (f.size = 0 ∧ e = .zeroSized f.name) ∨
      (f.size ≠ 0 ∧ UInt64.size ≤ f.span.stop ∧ e = .overflow f.name f.offset) := by
  unfold overwrite
  split
  · next hsize => simp [hsize, eq_comm]
  · next hsize =>
    have hstop := @checkedAdd_eq_none_iff f.offset f.size
    cases hadd : checkedAdd f.offset f.size with
    | none => simp [hsize, hstop.mp hadd, Span.stop, Field.span, eq_comm]
    | some stop =>
      have hlt := mt hstop.mpr (by simp [hadd])
      simp [hsize, Span.stop, Field.span, hlt]

/-! ## Writing to a layout -/

/-- What can be done to the fields and the size of a layout. -/
inductive Write where
  /-- Tries to put a field in place. -/
  | overwrite (f : Field)
  | growTo (size : Word)

/-- The layout afterwards.  A field that cannot be put in place leaves it as it is. -/
def write (l : Layout) : Write → Layout
  | .overwrite f =>
    match l.overwrite f with
    | .ok (_, l') => l'
    | .error _ => l
  | .growTo size => l.growTo size

/-- The layout after several writes. -/
def writeAll (l : Layout) (writes : List Write) : Layout := writes.foldl write l

/-- The field is the last that the writes put in place. -/
def LastPlaced (f : Field) (writes : List Write) : Prop :=
  ∃ front rest, writes = front ++ .overwrite f :: rest ∧ f.Fits ∧ ∀ g, .overwrite g ∈ rest → ¬ g.Fits

/-- Orderly, and no field reaches beyond the size. -/
structure Contained (l : Layout) : Prop extends Orderly l where
  within : ∀ f ∈ l.fields, f.span.stop ≤ l.size.toNat

theorem write_overwrite_of_fits {l : Layout} {f : Field} (hf : f.Fits) :
    l.write (.overwrite f) = l.put f := by
  simp only [write, overwrite_eq hf]

theorem write_overwrite_of_not_fits {l : Layout} {f : Field} (hf : ¬ f.Fits) :
    l.write (.overwrite f) = l := by
  rw [write]
  split
  · next h => exact absurd (fits_of_overwrite h) hf
  · rfl

/-- **A write keeps the fields orderly and within the size.** -/
theorem Contained.write {l : Layout} (hl : l.Contained) (w : Write) : (l.write w).Contained := by
  cases w with
  | overwrite f =>
    by_cases hf : f.Fits
    · rw [write_overwrite_of_fits hf]
      have hsize : (l.put f).size.toNat = max l.size.toNat f.span.stop :=
        (toNat_max _ _).trans (congrArg (max _) hf.toNat_stop)
      refine ⟨hl.toOrderly.put hf, fun g hg => ?_⟩
      rw [hsize]
      rcases mem_put.mp hg with rfl | ⟨hg, -⟩
      · exact Nat.le_max_right _ _
      · exact Nat.le_trans (hl.within g hg) (Nat.le_max_left _ _)
    · rwa [write_overwrite_of_not_fits hf]
  | growTo size =>
    have hsize : (l.growTo size).size.toNat = max l.size.toNat size.toNat := toNat_max _ _
    refine ⟨⟨hl.filled, hl.sorted, hl.disjoint⟩, fun f hf => ?_⟩
    change f.span.stop ≤ (l.growTo size).size.toNat
    rw [hsize]
    exact Nat.le_trans (hl.within f hf) (Nat.le_max_left _ _)

theorem Contained.writeAll {l : Layout} (hl : l.Contained) (writes : List Write) :
    (l.writeAll writes).Contained := by
  induction writes generalizing l with
  | nil => exact hl
  | cons w rest ih => exact ih (hl.write w)

theorem writeAll_append (l : Layout) (front rest : List Write) :
    l.writeAll (front ++ rest) = (l.writeAll front).writeAll rest := List.foldl_append ..

/-- Writes that put no field in place leave the fields as they are. -/
theorem fields_writeAll {l : Layout} {writes : List Write}
    (h : ∀ g, .overwrite g ∈ writes → ¬ g.Fits) : (l.writeAll writes).fields = l.fields := by
  induction writes generalizing l with
  | nil => rfl
  | cons w rest ih =>
    have hw : (l.write w).fields = l.fields := by
      cases w with
      | overwrite g => rw [write_overwrite_of_not_fits (h g List.mem_cons_self)]
      | growTo size => rfl
    exact (ih fun g hg => h g (List.mem_cons_of_mem _ hg)).trans hw

/-- The field that was put in place last is there. -/
theorem LastPlaced.mem_fields {f : Field} {writes : List Write} (h : LastPlaced f writes) (l : Layout) :
    f ∈ (l.writeAll writes).fields := by
  obtain ⟨front, rest, rfl, hf, hrest⟩ := h
  rw [writeAll_append, writeAll, List.foldl_cons, ← writeAll, fields_writeAll hrest,
    write_overwrite_of_fits hf]
  exact mem_put.mpr (.inl rfl)

/-- **Overwriting is exact.**  In an orderly layout, a field without bytes or beyond the address space changes
    nothing, and any other takes exactly the place of the fields that it shares a byte with.  And after any
    writes to a layout without fields, the fields are orderly and within the size, and the field that was put
    in place last is shown at all its bytes. -/
theorem overwrite_exact (l : Layout) (hl : l.Orderly) (f : Field) :
    (∀ e, l.overwrite f = .error e ↔ (f.size = 0 ∧ e = .zeroSized f.name) ∨
      (f.size ≠ 0 ∧ UInt64.size ≤ f.span.stop ∧ e = .overflow f.name f.offset)) ∧
    (∀ e, l.overwrite f = .error e → l.write (.overwrite f) = l) ∧
    (f.size ≠ 0 → f.span.stop < UInt64.size →
      ∃ evicted l', l.overwrite f = .ok (evicted, l') ∧ l.Overwritten f evicted l') ∧
    ∀ name size alignment writes, let r := (empty name size alignment).writeAll writes
      r.Orderly ∧ (∀ g ∈ r.fields, g.span.stop ≤ r.size.toNat) ∧
        ∀ g, LastPlaced g writes → ∀ b : Word, b.toNat ∈ g.span.bytes → r.fieldAt? b = some g := by
  refine ⟨fun e => overwrite_eq_error_iff, fun e he => ?_, fun hsize hstop => ?_,
    fun name size alignment writes => ?_⟩
  · simp only [write, he]
  · obtain ⟨evicted, hok, hover⟩ := hl.overwritten (Field.fits_iff.mpr ⟨hsize, hstop⟩)
    exact ⟨evicted, _, hok, hover⟩
  · have hempty : (empty name size alignment).Contained :=
      ⟨orderly_empty name size alignment, by simp [empty]⟩
    have hr := hempty.writeAll writes
    refine ⟨hr.toOrderly, hr.within, fun g hg b hb => ?_⟩
    obtain ⟨-, -, -, hfits, -⟩ := id hg
    exact hr.fieldAt?_eq_some (hg.mem_fields _) hfits hb

/-- A layout whose last field reaches to the very end of the address space. -/
def towering : Layout :=
  ⟨"tower", [.undefined 0 4, .undefined 4 8, .undefined 0xfffffffffffffff0 16], maxWord, 8⟩

/-- A field in place of the first two: the bytes that they alone had show nothing any more, and those of the last
    one what they showed before. -/
theorem overwrite_exact_towering :
    towering.Orderly ∧ ∃ l',
      towering.overwrite (.undefined 2 6) = .ok ([.undefined 0 4, .undefined 4 8], l') ∧
      l'.fieldAt? 1 = none ∧ l'.fieldAt? 7 = some (.undefined 2 6) ∧
      l'.fieldAt? 0xfffffffffffffffe = some (.undefined 0xfffffffffffffff0 16) := by
  have hl : towering.Orderly := ⟨by decide, by decide, by decide⟩
  obtain ⟨-, -, hok, -⟩ := overwrite_exact towering hl (.undefined 2 6)
  obtain ⟨evicted, l', hover, h⟩ := hok (by decide) (by decide)
  obtain rfl := h.evicted_eq
  refine ⟨hl, l', hover, h.cleared 1 (by decide) (by decide), h.written 7 (by decide), ?_⟩
  exact h.untouched _ (by decide) (by decide)

end Layout

end ClassRecovery
