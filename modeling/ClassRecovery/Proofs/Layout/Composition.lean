/-
  Composing layouts.

  A layout is composed by putting in place the fields of the bases, then the hidden pointers that no inherited
  field blocks, and last the data members, if they have room (`ClassType.compose_ok_iff`).  Which
  pointers are blocked is decided by the inherited fields alone, and these stay.  So composing once more
  on top of the result changes nothing (`ClassType.compose_again`).
-/
import ClassRecovery.Model.Layouts
import ClassRecovery.Proofs.Lists
import ClassRecovery.Proofs.Layout.Overwrite

namespace ClassRecovery

namespace Layout

/-! ## Embedding bases -/

theorem embed_ok_iff {l l' : Layout} {bases : List EmbeddedBase} :
    l.embed bases = .ok l' ↔
      (∀ b ∈ bases, b.field.Fits) ∧ l' = l.putAll (bases.map EmbeddedBase.field) := by
  induction bases generalizing l with
  | nil => simp [embed, putAll, eq_comm]
  | cons b rest ih =>
    simp only [embed, bind_eq_ok_iff, List.mem_cons, forall_eq_or_imp, Prod.exists]
    constructor
    · rintro ⟨evicted, l₁, hput, hrest⟩
      have hfits := fits_of_overwrite hput
      rw [overwrite_eq hfits] at hput
      cases hput
      obtain ⟨hall, rfl⟩ := ih.mp hrest
      exact ⟨⟨hfits, hall⟩, rfl⟩
    · rintro ⟨⟨hfits, hall⟩, rfl⟩
      exact ⟨_, _, overwrite_eq hfits, ih.mpr ⟨hall, rfl⟩⟩

end Layout

/-! ## Hidden pointers -/

/-- The field keeps hidden pointers away. -/
def Field.Guards (f : Field) : Prop := f.isUndefined = false ∧ f.isInherited = true

theorem EmbeddedBase.guards_field (b : EmbeddedBase) : b.field.Guards := by
  refine ⟨rfl, ?_⟩
  simp [Field.isInherited, EmbeddedBase.field, Field.base, String.toList_append]

theorem Field.not_guards_undefined (offset size : Word) : ¬ (Field.undefined offset size).Guards := by
  rintro ⟨hundefined, -⟩
  cases hundefined

namespace Layout

theorem blocks_iff {l : Layout} {p : Field} :
    l.blocks p = true ↔ ∃ f ∈ l.fields, f.Meets p ∧ f.Guards := by
  simp [blocks, Field.Meets, Field.Guards, and_assoc]

/-- Layouts with the same guarding fields block the same pointers. -/
theorem blocks_congr {l l' : Layout} (h : ∀ f, f.Guards → (f ∈ l.fields ↔ f ∈ l'.fields))
    (p : Field) : l.blocks p = l'.blocks p := by
  rw [Bool.eq_iff_iff, blocks_iff, blocks_iff]
  constructor
  · rintro ⟨f, hf, hmeets, hguards⟩
    exact ⟨f, (h f hguards).mp hf, hmeets, hguards⟩
  · rintro ⟨f, hf, hmeets, hguards⟩
    exact ⟨f, (h f hguards).mpr hf, hmeets, hguards⟩

/-- A field that is not blocked and does not guard itself leaves the guarding fields as they are. -/
theorem mem_put_of_guards {l : Layout} {p f : Field} (hp : ¬ p.Guards) (hfree : l.blocks p = false)
    (hf : f.Guards) : f ∈ (l.put p).fields ↔ f ∈ l.fields := by
  rw [mem_put]
  constructor
  · rintro (rfl | ⟨hmem, -⟩)
    · exact absurd hf hp
    · exact hmem
  · intro hmem
    refine .inr ⟨hmem, fun hmeets => ?_⟩
    rw [blocks_iff.mpr ⟨f, hmem, hmeets, hf⟩] at hfree
    cases hfree

theorem mem_putAll_of_guards {l : Layout} {pointers : List Field} {f : Field}
    (hpointers : ∀ p ∈ pointers, ¬ p.Guards ∧ l.blocks p = false) (hf : f.Guards) :
    f ∈ (l.putAll pointers).fields ↔ f ∈ l.fields := by
  rw [mem_putAll]
  constructor
  · rintro (hsurvives | ⟨hmem, -⟩)
    · exact absurd hf (hpointers f hsurvives.mem).1
    · exact hmem
  · refine fun hmem => .inr ⟨hmem, fun p hp hmeets => ?_⟩
    have hfree := (hpointers p hp).2
    rw [blocks_iff.mpr ⟨f, hmem, hmeets, hf⟩] at hfree
    cases hfree

theorem placePointers_cons_of_blocked {l : Layout} {p : Field} {rest : List Field}
    (h : l.blocks p = true) :
    l.placePointers (p :: rest) = (l.placePointers rest).map fun r => (p :: r.1, r.2) := by
  simp only [placePointers, placePointer, h, if_true, bind, Except.bind]
  cases l.placePointers rest <;> rfl

theorem placePointers_cons_of_fits {l : Layout} {p : Field} {rest : List Field}
    (h : l.blocks p = false) (hfits : p.Fits) :
    l.placePointers (p :: rest) = (l.put p).placePointers rest := by
  simp only [placePointers, placePointer, h, Bool.false_eq_true, if_false, overwrite_eq hfits,
    Except.map, bind, Except.bind]
  cases (l.put p).placePointers rest <;> rfl

theorem fits_of_placePointers_cons {l : Layout} {p : Field} {rest : List Field}
    {r : List Field × Layout} (h : l.blocks p = false) (hr : l.placePointers (p :: rest) = .ok r) :
    p.Fits := by
  simp only [placePointers, placePointer, h, Bool.false_eq_true, if_false] at hr
  cases hover : l.overwrite p with
  | error e =>
    rw [hover] at hr
    cases hr
  | ok r' => exact fits_of_overwrite hover

/-- The pointers that are not blocked are put in place. -/
theorem placePointers_ok_iff {l : Layout} {pointers : List Field} {r : List Field × Layout}
    (hguards : ∀ p ∈ pointers, ¬ p.Guards) :
    l.placePointers pointers = .ok r ↔
      (∀ p ∈ pointers, l.blocks p = false → p.Fits) ∧
        r = (pointers.filter (l.blocks ·), l.putAll (pointers.filter (!l.blocks ·))) := by
  induction pointers generalizing l r with
  | nil =>
    constructor
    · rintro ⟨⟩
      exact ⟨by simp, rfl⟩
    · rintro ⟨-, rfl⟩
      rfl
  | cons p rest ih =>
    simp only [List.mem_cons, forall_eq_or_imp] at hguards ⊢
    cases hblocks : l.blocks p with
    | true =>
      rw [placePointers_cons_of_blocked hblocks]
      constructor
      · intro h
        cases hrest : l.placePointers rest with
        | error e =>
          rw [hrest] at h
          cases h
        | ok r' =>
          obtain ⟨hfits, rfl⟩ := (ih hguards.2).mp hrest
          rw [hrest] at h
          cases h
          exact ⟨⟨by simp, hfits⟩, by simp [hblocks]⟩
      · rintro ⟨⟨-, hfits⟩, rfl⟩
        rw [(ih hguards.2).mpr ⟨hfits, rfl⟩]
        simp [Except.map, hblocks]
    | false =>
      have hsame : ∀ q, (l.put p).blocks q = l.blocks q :=
        blocks_congr fun f hf => mem_put_of_guards hguards.1 hblocks hf
      have ih' := @ih (l.put p) r hguards.2
      simp only [hsame] at ih'
      constructor
      · intro h
        have hfits := fits_of_placePointers_cons hblocks h
        rw [placePointers_cons_of_fits hblocks hfits] at h
        obtain ⟨hall, hr⟩ := ih'.mp h
        exact ⟨⟨fun _ => hfits, hall⟩, by simp [hblocks, hr, putAll]⟩
      · rintro ⟨⟨hfits, hall⟩, hr⟩
        rw [placePointers_cons_of_fits hblocks (hfits rfl)]
        exact ih'.mpr ⟨hall, by simp [hr, hblocks, putAll]⟩

/-! ## Data members -/

/-- Whether the layout has room for the data members. -/
def roomFor (l : Layout) (members : Field) : Bool :=
  0 < members.size && !l.fields.any fun f => f.overlaps members.offset members.stop

theorem roomFor_iff {l : Layout} {u : Field} :
    l.roomFor u = true ↔ 0 < u.size ∧ ∀ f ∈ l.fields, ¬ f.Meets u := by
  simp [roomFor, Field.Meets]

theorem reserve_ok_iff {l l' : Layout} {offset size : Word} :
    l.reserve offset size = .ok l' ↔
      (l.roomFor (.undefined offset size) = true → (Field.undefined offset size).Fits) ∧
        l' = if l.roomFor (.undefined offset size) then l.put (.undefined offset size) else l := by
  change (if l.roomFor (.undefined offset size) then _ else _) = _ ↔ _
  cases l.roomFor (.undefined offset size) with
  | false => simp [eq_comm]
  | true =>
    simp only [if_true, forall_const]
    constructor
    · intro h
      cases hover : l.overwrite (.undefined offset size) with
      | error e =>
        rw [hover] at h
        cases h
      | ok r =>
        have hfits := fits_of_overwrite hover
        rw [overwrite_eq hfits] at h
        cases h
        exact ⟨hfits, rfl⟩
    · rintro ⟨hfits, rfl⟩
      rw [overwrite_eq hfits]
      rfl

/-! ## Composing -/

/-- The layout with the bases, and with the pointers that are not blocked then. -/
def inherited (l : Layout) (bases pointers : List Field) : Layout :=
  (l.putAll bases).putAll (pointers.filter (!(l.putAll bases).blocks ·))

/-- The layout with the bases, the pointers that are not blocked, and the data members if there
    is room. -/
def composed (l : Layout) (bases pointers : List Field) (members : Field) : Layout :=
  if (l.inherited bases pointers).roomFor members then (l.inherited bases pointers).put members
  else l.inherited bases pointers

/-- What has to hold for the fields that are put in place. -/
structure Composable (start : Layout) (bases pointers : List Field) (members : Field) : Prop where
  fitBases : ∀ b ∈ bases, b.Fits
  fitPointers : ∀ p ∈ pointers, (start.putAll bases).blocks p = false → p.Fits
  fitMembers : (start.inherited bases pointers).roomFor members = true → members.Fits

section
variable {start : Layout} {bases pointers : List Field} {members : Field}

theorem mem_free {p : Field} (hp : p ∈ pointers.filter (!(start.putAll bases).blocks ·)) :
    p ∈ pointers ∧ (start.putAll bases).blocks p = false := by
  simpa using List.mem_filter.mp hp

theorem composed_name : (start.composed bases pointers members).name = start.name := by
  have hname : (start.inherited bases pointers).name = start.name :=
    (putAll_name _ _).trans (putAll_name _ _)
  unfold composed
  split
  · exact hname
  · exact hname

theorem composed_alignment :
    (start.composed bases pointers members).alignment = start.alignment := by
  have halign : (start.inherited bases pointers).alignment = start.alignment :=
    (putAll_alignment _ _).trans (putAll_alignment _ _)
  unfold composed
  split
  · exact halign
  · exact halign

theorem Composable.wellFormed_inherited (hc : Composable start bases pointers members)
    (hstart : start.WellFormed) : (start.inherited bases pointers).WellFormed :=
  (hstart.putAll hc.fitBases).putAll fun p hp =>
    hc.fitPointers p (mem_free hp).1 (mem_free hp).2

theorem Composable.wellFormed (hc : Composable start bases pointers members)
    (hstart : start.WellFormed) : (start.composed bases pointers members).WellFormed := by
  have hinherited := hc.wellFormed_inherited hstart
  unfold composed
  split
  · next hroom => exact hinherited.put (hc.fitMembers hroom)
  · exact hinherited

/-- Data members take the place of no field. -/
theorem mem_composed {f : Field} :
    f ∈ (start.composed bases pointers members).fields ↔
      f ∈ (start.inherited bases pointers).fields ∨
        (f = members ∧ (start.inherited bases pointers).roomFor members = true) := by
  unfold composed
  split
  · next hroom =>
    rw [mem_put]
    constructor
    · rintro (rfl | ⟨hf, -⟩)
      · exact .inr ⟨rfl, hroom⟩
      · exact .inl hf
    · rintro (hf | ⟨rfl, -⟩)
      · exact .inr ⟨hf, (roomFor_iff.mp hroom).2 f hf⟩
      · exact .inl rfl
  · next hroom => simp [hroom]

/-- The guarding fields are those of the bases, and those that were there and no base evicts. -/
theorem mem_composed_of_guards (hpointers : ∀ p ∈ pointers, ¬ p.Guards) (hmembers : ¬ members.Guards)
    {f : Field} (hf : f.Guards) :
    f ∈ (start.composed bases pointers members).fields ↔ f ∈ (start.putAll bases).fields := by
  rw [mem_composed, inherited, mem_putAll_of_guards (fun p hp => ?_) hf]
  · constructor
    · rintro (hmem | ⟨rfl, -⟩)
      · exact hmem
      · exact absurd hf hmembers
    · exact .inl
  · exact ⟨hpointers p (mem_free hp).1, (mem_free hp).2⟩

/-- A composed layout is large enough for what is put in. -/
theorem stop_le_size_composed :
    (∀ b ∈ bases, b.stop.toNat ≤ (start.composed bases pointers members).size.toNat) ∧
      (∀ p ∈ pointers, (start.putAll bases).blocks p = false →
        p.stop.toNat ≤ (start.composed bases pointers members).size.toNat) ∧
      ((start.inherited bases pointers).roomFor members = true →
        members.stop.toNat ≤ (start.composed bases pointers members).size.toNat) := by
  obtain ⟨-, hbases⟩ := le_size_putAll start bases
  obtain ⟨hgrows, hfree⟩ := le_size_putAll (start.putAll bases)
    (pointers.filter (!(start.putAll bases).blocks ·))
  have hsize : (start.inherited bases pointers).size.toNat ≤
      (start.composed bases pointers members).size.toNat ∧
        ((start.inherited bases pointers).roomFor members = true →
          members.stop.toNat ≤ (start.composed bases pointers members).size.toNat) := by
    unfold composed
    split
    · have hput : ((start.inherited bases pointers).put members).size.toNat =
          max (start.inherited bases pointers).size.toNat members.stop.toNat := toNat_max _ _
      exact ⟨by omega, fun _ => by omega⟩
    · next hroom => exact ⟨Nat.le_refl _, fun h => absurd h hroom⟩
  refine ⟨fun b hb => ?_, fun p hp hblocks => ?_, hsize.2⟩
  · exact Nat.le_trans (hbases b hb) (Nat.le_trans hgrows hsize.1)
  · exact Nat.le_trans (hfree p (List.mem_filter.mpr ⟨hp, by simp [hblocks]⟩)) hsize.1

end

/-- A layout that has room for what is put in keeps its size. -/
theorem composed_size_eq {start : Layout} {bases pointers : List Field} {members : Field}
    (hbases : ∀ b ∈ bases, b.stop.toNat ≤ start.size.toNat)
    (hpointers : ∀ p ∈ pointers, p.stop.toNat ≤ start.size.toNat)
    (hmembers : members.stop.toNat ≤ start.size.toNat) :
    (start.composed bases pointers members).size = start.size := by
  have hembedded : (start.putAll bases).size = start.size := putAll_size_eq hbases
  have hinherited : (start.inherited bases pointers).size = start.size := by
    refine (putAll_size_eq fun p hp => ?_).trans hembedded
    rw [hembedded]
    exact hpointers p (mem_free hp).1
  unfold composed
  split
  · exact (put_size_eq (by rw [hinherited]; exact hmembers)).trans hinherited
  · exact hinherited

/-- Every embedded base was there, or is one of those that are put in. -/
theorem mem_of_isBase {start : Layout} {bases pointers : List Field} {members f : Field}
    (hpointers : ∀ p ∈ pointers, p.isBase = false) (hmembers : members.isBase = false)
    (hf : f ∈ (start.composed bases pointers members).fields) (hbase : f.isBase = true) :
    f ∈ bases ∨ f ∈ start.fields := by
  rcases mem_composed.mp hf with hf | ⟨rfl, -⟩
  · rw [inherited, mem_putAll, mem_putAll] at hf
    rcases hf with hf | ⟨hf | ⟨hf, -⟩, -⟩
    · rw [hpointers f (mem_free hf.mem).1] at hbase
      cases hbase
    · exact .inl hf.mem
    · exact .inr hf
  · rw [hmembers] at hbase
    cases hbase

/-! ## Composing once more -/

section
variable {start r : Layout} {bases pointers : List Field} {members : Field}
variable (hpointers : ∀ p ∈ pointers, ¬ p.Guards) (hmembers : ¬ members.Guards)
variable (hr : r.fields = (start.composed bases pointers members).fields)
include hpointers hmembers hr

/-- The same pointers are blocked once more. -/
theorem blocks_recomposed (p : Field) : (r.putAll bases).blocks p = (start.putAll bases).blocks p := by
  refine blocks_congr (fun f hf => ?_) p
  have hcomposed := @mem_composed_of_guards start bases _ _ hpointers hmembers f hf
  rw [mem_putAll, hr, hcomposed, mem_putAll]
  tauto

theorem mem_reinherited {f : Field} :
    f ∈ (r.inherited bases pointers).fields ↔
      Survives f (pointers.filter (!(start.putAll bases).blocks ·)) ∨
        ((Survives f bases ∨ (f ∈ (start.composed bases pointers members).fields ∧
            ∀ b ∈ bases, ¬ f.Meets b)) ∧
          ∀ p ∈ pointers.filter (!(start.putAll bases).blocks ·), ¬ f.Meets p) := by
  simp only [inherited, blocks_recomposed hpointers hmembers hr, mem_putAll, hr]

/-- What the bases and the pointers leave is there once more. -/
theorem mem_reinherited_of_mem {f : Field} (hf : f ∈ (start.inherited bases pointers).fields) :
    f ∈ (r.inherited bases pointers).fields := by
  have hcomposed : f ∈ (start.composed bases pointers members).fields := mem_composed.mpr (.inl hf)
  rw [mem_reinherited hpointers hmembers hr]
  rw [inherited, mem_putAll, mem_putAll] at hf
  tauto

/-- Besides, only the data members may be there. -/
theorem mem_of_mem_reinherited {f : Field} (hf : f ∈ (r.inherited bases pointers).fields) :
    f ∈ (start.inherited bases pointers).fields ∨
      (f = members ∧ (start.inherited bases pointers).roomFor members = true) := by
  rw [mem_reinherited hpointers hmembers hr, mem_composed] at hf
  have honce := @mem_putAll start bases f
  rw [inherited, mem_putAll] at hf ⊢
  tauto

/-- There is room for the data members once more, unless they are there already. -/
theorem roomFor_reinherited :
    (r.inherited bases pointers).roomFor members = true →
      (start.inherited bases pointers).roomFor members = true := by
  intro hroom
  obtain ⟨hsize, hclear⟩ := roomFor_iff.mp hroom
  exact roomFor_iff.mpr
    ⟨hsize, fun f hf => hclear f (mem_reinherited_of_mem hpointers hmembers hr hf)⟩

theorem Composable.again (hc : Composable start bases pointers members) :
    Composable r bases pointers members where
  fitBases := hc.fitBases
  fitPointers p hp hfree :=
    hc.fitPointers p hp (blocks_recomposed hpointers hmembers hr p ▸ hfree)
  fitMembers hroom := hc.fitMembers (roomFor_reinherited hpointers hmembers hr hroom)

/-- **Composing once more gives the same fields.** -/
theorem mem_recomposed (hc : Composable start bases pointers members) {f : Field} :
    f ∈ (r.composed bases pointers members).fields ↔
      f ∈ (start.composed bases pointers members).fields := by
  rw [mem_composed, mem_composed]
  constructor
  · rintro (hf | ⟨rfl, hroom⟩)
    · exact mem_of_mem_reinherited hpointers hmembers hr hf
    · exact .inr ⟨rfl, roomFor_reinherited hpointers hmembers hr hroom⟩
  · rintro (hf | ⟨rfl, hroom⟩)
    · exact .inl (mem_reinherited_of_mem hpointers hmembers hr hf)
    · by_cases hmem : f ∈ (r.inherited bases pointers).fields
      · exact .inl hmem
      · -- no other field meets the data members, so there is room for them
        obtain ⟨hsize, hclear⟩ := roomFor_iff.mp hroom
        refine .inr ⟨rfl, roomFor_iff.mpr ⟨hsize, fun g hg => ?_⟩⟩
        rcases mem_of_mem_reinherited hpointers hmembers hr hg with hg' | ⟨rfl, -⟩
        · exact hclear g hg'
        · exact absurd hg hmem

/-- **Composing once more changes nothing**, if the layout is large enough. -/
theorem composed_again (hc : Composable start bases pointers members) (hstart : start.WellFormed)
    (hsize : (start.composed bases pointers members).size.toNat ≤ r.size.toNat) :
    r.composed bases pointers members = r := by
  have hwf : r.WellFormed := ⟨hr ▸ (hc.wellFormed hstart).fits, hr ▸ (hc.wellFormed hstart).apart⟩
  have hagain := hc.again hpointers hmembers hr
  have hfields : (r.composed bases pointers members).fields = r.fields := by
    refine (hagain.wellFormed hwf).fields_ext hwf fun f => ?_
    rw [mem_recomposed hpointers hmembers hr hc, hr]
  obtain ⟨hbases, hfree, hroom⟩ := @stop_le_size_composed start bases pointers members
  have hinherited : (r.inherited bases pointers).size = r.size := by
    have hputBases : (r.putAll bases).size = r.size :=
      putAll_size_eq fun b hb => Nat.le_trans (hbases b hb) hsize
    refine (putAll_size_eq fun p hp => ?_).trans hputBases
    rw [hputBases]
    have hblocks := blocks_recomposed hpointers hmembers hr p
    exact Nat.le_trans (hfree p (mem_free hp).1 (hblocks ▸ (mem_free hp).2)) hsize
  have hsame : (r.composed bases pointers members).size = r.size := by
    unfold composed
    split
    · next hagain =>
      have hstop := hroom (roomFor_reinherited hpointers hmembers hr hagain)
      exact (put_size_eq (by rw [hinherited]; omega)).trans hinherited
    · exact hinherited
  calc r.composed bases pointers members
      = ⟨r.name, r.fields, r.size, r.alignment⟩ := by
        rw [← hfields, ← hsame, ← @composed_name r bases pointers members,
          ← @composed_alignment r bases pointers members]
    _ = r := rfl

end

end Layout

/-! ## Layouts of classes -/

namespace ClassType

/-- A hidden pointer is where the table has it. -/
theorem of_mem_hiddenPointers {c : ClassType} {abi : Abi} {pointerSize : Word} {table : BaseOffsetTable}
    {p : Field} (hp : p ∈ c.hiddenPointers abi pointerSize table) :
    (∃ o, table.vptrOffset = some o ∧
      p = .virtualPointer abi.virtualPointerName o pointerSize none) ∨
    ∃ o, table.ownsVbptr = true ∧ table.vbptrOffset = some o ∧
      p = .virtualBasePointer abi.virtualBasePointerName o pointerSize := by
  simp only [hiddenPointers] at hp
  rcases List.mem_append.mp hp with hp | hp
  · split at hp
    · next o ho =>
      split at hp
      · exact .inl ⟨o, ho, List.mem_singleton.mp hp⟩
      · cases hp
    · cases hp
  · split at hp
    · next o ho =>
      split at hp
      · next howns => exact .inr ⟨o, howns, ho, List.mem_singleton.mp hp⟩
      · cases hp
    · cases hp

theorem not_guards_hiddenPointers (c : ClassType) (abi : Abi) (pointerSize : Word)
    (table : BaseOffsetTable) : ∀ p ∈ c.hiddenPointers abi pointerSize table, ¬ p.Guards := by
  rintro p hp ⟨-, hinherited⟩
  rcases of_mem_hiddenPointers hp with ⟨o, -, rfl⟩ | ⟨o, -, -, rfl⟩
  · change Field.inheritedMark.toList.isPrefixOf abi.virtualPointerName.toList = true at hinherited
    cases abi <;> cases hinherited
  · change Field.inheritedMark.toList.isPrefixOf abi.virtualBasePointerName.toList = true at hinherited
    cases abi <;> cases hinherited

theorem isBase_hiddenPointers {c : ClassType} {abi : Abi} {pointerSize : Word} {table : BaseOffsetTable} :
    ∀ p ∈ c.hiddenPointers abi pointerSize table, p.isBase = false := by
  intro p hp
  rcases of_mem_hiddenPointers hp with ⟨o, -, rfl⟩ | ⟨o, -, -, rfl⟩ <;> rfl

variable {c : ClassType} {abi : Abi} {pointerSize : Word} {table : BaseOffsetTable}
variable {bases : List EmbeddedBase} {size : Word} {start : Layout}

/-- **What composing the layout of a class gives**, and when. -/
theorem compose_ok_iff {r : List Field × Layout} :
    c.compose abi pointerSize table bases size start = .ok r ↔
      let fields := bases.map EmbeddedBase.field
      let pointers := c.hiddenPointers abi pointerSize table
      let members := Field.undefined table.membersOffset c.memberSize
      Layout.Composable start fields pointers members ∧
        r = (pointers.filter ((start.putAll fields).blocks ·),
          (start.composed fields pointers members).growTo size) := by
  have hguards := c.not_guards_hiddenPointers abi pointerSize table
  simp only [compose, bind_eq_ok_iff, Layout.embed_ok_iff]
  constructor
  · rintro ⟨_, ⟨hbases, rfl⟩, ⟨away, l⟩, hplace, l', hreserve, hr⟩
    obtain ⟨hpointers, hplaced⟩ := (Layout.placePointers_ok_iff hguards).mp hplace
    cases hplaced
    obtain ⟨hmembers, rfl⟩ := Layout.reserve_ok_iff.mp hreserve
    cases hr
    refine ⟨⟨?_, hpointers, hmembers⟩, rfl⟩
    simpa using hbases
  · rintro ⟨hc, rfl⟩
    refine ⟨_, ⟨by simpa using hc.fitBases, rfl⟩, _,
      (Layout.placePointers_ok_iff hguards).mpr ⟨hc.fitPointers, rfl⟩, _,
      Layout.reserve_ok_iff.mpr ⟨hc.fitMembers, rfl⟩, rfl⟩

/-- **Composing on top of what was composed changes nothing.** -/
theorem compose_again {away : List Field} {l : Layout} (hstart : start.WellFormed)
    (h : c.compose abi pointerSize table bases size start = .ok (away, l)) :
    c.compose abi pointerSize table bases size l = .ok (away, l) := by
  have hguards := c.not_guards_hiddenPointers abi pointerSize table
  have hmembers := Field.not_guards_undefined table.membersOffset c.memberSize
  obtain ⟨hc, hr⟩ := compose_ok_iff.mp h
  obtain ⟨haway, hl⟩ := Prod.mk.inj hr
  have hfields : l.fields = _ := congrArg Layout.fields hl
  have hsize : l.size.toNat = _ := (congrArg (·.size.toNat) hl).trans (toNat_max _ _)
  refine compose_ok_iff.mpr ⟨hc.again hguards hmembers hfields, Prod.ext ?_ ?_⟩
  · simp only [haway, Layout.blocks_recomposed hguards hmembers hfields]
  · have hagain := Layout.composed_again hguards hmembers hfields hc hstart (by omega)
    have hgrown : max l.size size = l.size := by
      apply UInt64.toNat_inj.mp
      rw [toNat_max]
      omega
    simp only [hagain, Layout.growTo, hgrown]

/-- **Composing keeps a layout well formed.** -/
theorem compose_wellFormed {away : List Field} {l : Layout} (hstart : start.WellFormed)
    (h : c.compose abi pointerSize table bases size start = .ok (away, l)) : l.WellFormed := by
  obtain ⟨hc, hr⟩ := compose_ok_iff.mp h
  obtain ⟨-, rfl⟩ := Prod.mk.inj hr
  exact ⟨(hc.wellFormed hstart).fits, (hc.wellFormed hstart).apart⟩

/-- A composed layout keeps its name and its alignment. -/
theorem compose_keeps {away : List Field} {l : Layout}
    (h : c.compose abi pointerSize table bases size start = .ok (away, l)) :
    l.name = start.name ∧ l.alignment = start.alignment := by
  obtain ⟨-, hr⟩ := compose_ok_iff.mp h
  obtain ⟨-, rfl⟩ := Prod.mk.inj hr
  exact ⟨Layout.composed_name, Layout.composed_alignment⟩

end ClassType

end ClassRecovery
