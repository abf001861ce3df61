/-
  Insertions that evict nothing.

  A field takes the place of no other if it shares no byte with those that are there (`Layout.takes_iff`), and
  then the fields are those from before and the new one (`Layout.perm_put`).  So if no two of the fields that a
  class puts in share a byte (`ClassType.FieldsApart`), a layout without fields gets all of them and no others
  (`ClassType.FieldsApart.perm_of_compose`), and none is evicted on the way
  (`ClassType.FieldsApart.undisturbed`).
-/
import ClassRecovery.Proofs.Layout.Composition

namespace ClassRecovery

theorem Field.Meets.symm {f g : Field} (h : f.Meets g) : g.Meets f :=
  Field.meets_iff.mpr (Field.meets_iff.mp h).symm

namespace Layout

/-! ## One field -/

/-- Putting the field in place evicts nothing. -/
def Takes (l : Layout) (f : Field) : Prop := ∃ l', l.overwrite f = .ok ([], l')

theorem takes_iff {l : Layout} {f : Field} : l.Takes f ↔ f.Fits ∧ ∀ g ∈ l.fields, ¬ g.Meets f := by
  constructor
  · rintro ⟨l', h⟩
    have hfits := fits_of_overwrite h
    rw [overwrite_eq hfits] at h
    have hnone := congrArg Prod.fst (Except.ok.inj h)
    exact ⟨hfits, by simpa [Field.Meets] using List.filter_eq_nil_iff.mp hnone⟩
  · rintro ⟨hfits, hmeets⟩
    have hnone : l.fields.filter (·.overlaps f.offset f.stop) = [] := List.filter_eq_nil_iff.mpr hmeets
    exact ⟨l.put f, by rw [overwrite_eq hfits, hnone]⟩

theorem perm_place (f : Field) (fields : List Field) : (place f fields).Perm (f :: fields) := by
  unfold place
  refine List.perm_middle.trans (.cons f ?_)
  rw [List.take_append_drop]

theorem perm_put {l : Layout} {f : Field} (h : ∀ g ∈ l.fields, ¬ g.Meets f) :
    (l.put f).fields.Perm (f :: l.fields) := by
  have hall : l.fields.filter (fun g => !g.overlaps f.offset f.stop) = l.fields :=
    List.filter_eq_self.mpr fun g hg => by simpa [Field.Meets] using h g hg
  exact (perm_place _ _).trans (.cons f (.of_eq hall))

/-! ## Several fields -/

/-- No two of the fields share a byte. -/
def Separate (fields : List Field) : Prop := fields.Pairwise fun f g => ¬ f.Meets g

theorem Separate.perm {fields fields' : List Field} (h : Separate fields) (hperm : fields.Perm fields') :
    Separate fields' :=
  (hperm.pairwise_iff fun hmeets hmeets' => hmeets hmeets'.symm).mp h

/-- Fields that share no byte are all there, and nothing else is but what was there before. -/
theorem perm_putAll {l : Layout} {fields : List Field} (h : Separate (l.fields ++ fields)) :
    (l.putAll fields).fields.Perm (l.fields ++ fields) := by
  induction fields generalizing l with
  | nil => simp [putAll]
  | cons f rest ih =>
    have hput : (l.put f).fields.Perm (f :: l.fields) := perm_put fun g hg =>
      (List.pairwise_append.mp h).2.2 g hg f List.mem_cons_self
    have hall : ((l.put f).fields ++ rest).Perm (l.fields ++ f :: rest) :=
      (hput.append_right rest).trans List.perm_middle.symm
    exact (ih (h.perm hall.symm)).trans hall

theorem mem_of_mem_putAll {l : Layout} {fields : List Field} {f : Field}
    (hf : f ∈ (l.putAll fields).fields) : f ∈ fields ∨ f ∈ l.fields := by
  rcases mem_putAll.mp hf with hf | ⟨hf, -⟩
  · exact .inl hf.mem
  · exact .inr hf

end Layout

/-! ## The fields of a class -/

/-- The hidden pointers that a class does not share with its bases. -/
def BaseOffsetTable.ownPointers (t : BaseOffsetTable) (abi : Abi) (pointerSize : Word) : List Field :=
  (if t.ownsVptr then t.vptrOffset else none).toList.map
      (Field.virtualPointer abi.virtualPointerName · pointerSize none) ++
    (if t.ownsVbptr then t.vbptrOffset else none).toList.map
      (Field.virtualBasePointer abi.virtualBasePointerName · pointerSize)

namespace ClassType

/-- The data members of a class, as one field. -/
def ownMembers (c : ClassType) (t : BaseOffsetTable) : List Field :=
  if 0 < c.memberSize then [.undefined t.membersOffset c.memberSize] else []

/-- What a layout of the class is made of: embedded bases, the hidden pointers of its own, and its data
    members. -/
def fields (c : ClassType) (abi : Abi) (pointerSize : Word) (t : BaseOffsetTable)
    (bases : List EmbeddedBase) : List Field :=
  bases.map EmbeddedBase.field ++ t.ownPointers abi pointerSize ++ c.ownMembers t

/-- Composing a layout on top of `start` evicts nothing: not where a base is embedded, not where a hidden
    pointer that is not blocked is put in place, and not where bytes are reserved for data members, which there are
    room for. -/
structure Undisturbed (c : ClassType) (abi : Abi) (pointerSize : Word) (t : BaseOffsetTable)
    (bases : List EmbeddedBase) (start : Layout) : Prop where
  embeds : ∀ before b after, bases = before ++ b :: after →
    ∃ l, start.embed before = .ok l ∧ l.Takes b.field
  places : ∀ before p after, c.hiddenPointers abi pointerSize t = before ++ p :: after →
    ∃ l away l', start.embed bases = .ok l ∧ l.placePointers before = .ok (away, l') ∧
      (l'.blocks p = false → l'.Takes p)
  reserves : ∃ l away l', start.embed bases = .ok l ∧
    l.placePointers (c.hiddenPointers abi pointerSize t) = .ok (away, l') ∧
      (0 < c.memberSize → l'.Takes (.undefined t.membersOffset c.memberSize))

/-- The fields of a layout fit and share no byte, and the hidden pointers that the class shares with its bases
    are within these. -/
structure FieldsApart (c : ClassType) (abi : Abi) (pointerSize : Word) (t : BaseOffsetTable)
    (bases : List EmbeddedBase) : Prop where
  fits : ∀ f ∈ c.fields abi pointerSize t bases, f.Fits
  separate : Layout.Separate (c.fields abi pointerSize t bases)
  shared : ∀ p ∈ c.hiddenPointers abi pointerSize t, p ∉ t.ownPointers abi pointerSize →
    ∃ b ∈ bases, b.field.Meets p

section
variable {c : ClassType} {abi : Abi} {pointerSize : Word} {t : BaseOffsetTable}
  {bases : List EmbeddedBase} {start : Layout}

theorem mem_ownPointers {p : Field} :
    p ∈ t.ownPointers abi pointerSize ↔
      (t.ownsVptr = true ∧ ∃ o, t.vptrOffset = some o ∧
        p = .virtualPointer abi.virtualPointerName o pointerSize none) ∨
      (t.ownsVbptr = true ∧ ∃ o, t.vbptrOffset = some o ∧
        p = .virtualBasePointer abi.virtualBasePointerName o pointerSize) := by
  simp only [BaseOffsetTable.ownPointers, List.mem_append, List.mem_map, Option.mem_toList,
    ite_eq_iff, reduceCtorEq, and_false, or_false, and_assoc, exists_and_left,
    eq_comm (a := p)]

/-- Of the hidden pointers of a class, those are left that are its own. -/
theorem filter_hiddenPointers {free : Field → Bool}
    (hfree : ∀ p ∈ c.hiddenPointers abi pointerSize t,
      free p = true ↔ p ∈ t.ownPointers abi pointerSize) :
    (c.hiddenPointers abi pointerSize t).filter free = t.ownPointers abi pointerSize := by
  unfold hiddenPointers at hfree ⊢
  rw [List.filter_append, BaseOffsetTable.ownPointers]
  congr 1
  · cases hvptr : t.vptrOffset with
    | none => simp
    | some o =>
      have hvp := hfree (.virtualPointer abi.virtualPointerName o pointerSize none)
      simp only [hvptr, mem_ownPointers] at hvp
      cases howns : t.ownsVptr <;> cases hpoly : c.isPolymorphic <;>
        simp_all [Field.virtualPointer, Field.virtualBasePointer]
  · cases hvbptr : t.vbptrOffset with
    | none => simp
    | some o =>
      have hvb := hfree (.virtualBasePointer abi.virtualBasePointerName o pointerSize)
      simp only [hvbptr, mem_ownPointers] at hvb
      cases howns : t.ownsVbptr <;> simp_all

namespace FieldsApart

section
variable (hapart : c.FieldsApart abi pointerSize t bases)
include hapart

theorem fits_base {b : EmbeddedBase} (hb : b ∈ bases) : b.field.Fits :=
  hapart.fits _ (List.mem_append_left _ (List.mem_append_left _ (List.mem_map_of_mem hb)))

theorem fits_pointer {p : Field} (hp : p ∈ t.ownPointers abi pointerSize) : p.Fits :=
  hapart.fits p (List.mem_append_left _ (List.mem_append_right _ hp))

theorem separate_inherited :
    Layout.Separate (bases.map EmbeddedBase.field ++ t.ownPointers abi pointerSize) :=
  (List.pairwise_append.mp hapart.separate).1

theorem separate_bases : Layout.Separate (bases.map EmbeddedBase.field) :=
  (List.pairwise_append.mp hapart.separate_inherited).1

/-- The bases can be embedded, one after the other. -/
theorem exists_embed (start : Layout) : ∃ l, start.embed bases = .ok l :=
  ⟨_, Layout.embed_ok_iff.mpr ⟨fun _ hb => hapart.fits_base hb, rfl⟩⟩

end

/-! ## Composing from nothing -/

section
variable (hapart : c.FieldsApart abi pointerSize t bases) (hstart : start.fields = [])
include hapart hstart

/-- A base evicts none of those before it. -/
theorem takes_base {before after : List EmbeddedBase} {b : EmbeddedBase}
    (hsplit : bases = before ++ b :: after) : ∃ l, start.embed before = .ok l ∧ l.Takes b.field := by
  have hfits : ∀ b' ∈ before, b'.field.Fits := fun b' hb' =>
    hapart.fits_base (hsplit ▸ List.mem_append_left _ hb')
  have hb : b.field.Fits := hapart.fits_base (hsplit ▸ List.mem_append_right before List.mem_cons_self)
  have hseparate := hapart.separate_bases
  rw [hsplit, List.map_append] at hseparate
  refine ⟨_, Layout.embed_ok_iff.mpr ⟨hfits, rfl⟩, Layout.takes_iff.mpr ⟨hb, fun g hg => ?_⟩⟩
  rcases Layout.mem_of_mem_putAll hg with hg | hg
  · exact (List.pairwise_append.mp hseparate).2.2 g hg _ List.mem_cons_self
  · rw [hstart] at hg
    cases hg

section
variable {l : Layout} (hembed : start.embed bases = .ok l)
include hembed

/-- Embedding the bases leaves a layout with these. -/
theorem perm_embed : l.fields.Perm (bases.map EmbeddedBase.field) := by
  obtain ⟨-, rfl⟩ := Layout.embed_ok_iff.mp hembed
  have hperm := @Layout.perm_putAll start (bases.map EmbeddedBase.field)
  rw [hstart] at hperm
  exact hperm hapart.separate_bases

/-- Only the class's own hidden pointers are not blocked by its bases. -/
theorem free_iff {p : Field} (hp : p ∈ c.hiddenPointers abi pointerSize t) :
    (!l.blocks p) = true ↔ p ∈ t.ownPointers abi pointerSize := by
  have hmem {f : Field} := (hapart.perm_embed hstart hembed).mem_iff (a := f)
  rw [Bool.not_eq_true', ← Bool.not_eq_true, Layout.blocks_iff]
  constructor
  · intro hfree
    by_contra hown
    obtain ⟨b, hb, hmeets⟩ := hapart.shared p hp hown
    exact hfree ⟨b.field, hmem.mpr (List.mem_map_of_mem hb), hmeets, b.guards_field⟩
  · rintro hown ⟨f, hf, hmeets, -⟩
    exact (List.pairwise_append.mp hapart.separate_inherited).2.2 f (hmem.mp hf) p hown hmeets

theorem filter_free :
    (c.hiddenPointers abi pointerSize t).filter (!l.blocks ·) = t.ownPointers abi pointerSize :=
  filter_hiddenPointers fun _ hp => hapart.free_iff hstart hembed hp

/-- Hidden pointers are put in place, but for those that the class shares with its bases. -/
theorem placePointers_eq {pointers : List Field}
    (hsub : ∀ p ∈ pointers, p ∈ c.hiddenPointers abi pointerSize t) :
    l.placePointers pointers =
      .ok (pointers.filter (l.blocks ·), l.putAll (pointers.filter (!l.blocks ·))) := by
  have hguards := c.not_guards_hiddenPointers abi pointerSize t
  refine (Layout.placePointers_ok_iff fun p hp => hguards p (hsub p hp)).mpr
    ⟨fun p hp hfree => hapart.fits_pointer ?_, rfl⟩
  exact (hapart.free_iff hstart hembed (hsub p hp)).mp (by rw [hfree, Bool.not_false])

/-- A hidden pointer evicts no base, and none of the hidden pointers before it. -/
theorem takes_pointer {before after : List Field} {p : Field}
    (hsplit : c.hiddenPointers abi pointerSize t = before ++ p :: after) :
    ∃ away l', l.placePointers before = .ok (away, l') ∧ (l'.blocks p = false → l'.Takes p) := by
  have hsub : ∀ q ∈ before, q ∈ c.hiddenPointers abi pointerSize t := fun q hq =>
    hsplit ▸ List.mem_append_left _ hq
  have hp : p ∈ c.hiddenPointers abi pointerSize t :=
    hsplit ▸ List.mem_append_right before List.mem_cons_self
  have hbefore : ∀ q ∈ before.filter (!l.blocks ·), ¬ q.Guards ∧ l.blocks q = false := by
    intro q hq
    obtain ⟨hq, hfree⟩ := List.mem_filter.mp hq
    exact ⟨c.not_guards_hiddenPointers abi pointerSize t q (hsub q hq), by simpa using hfree⟩
  have hsame : (l.putAll (before.filter (!l.blocks ·))).blocks p = l.blocks p :=
    Layout.blocks_congr (fun f hf => Layout.mem_putAll_of_guards hbefore hf) p
  refine ⟨_, _, hapart.placePointers_eq hstart hembed hsub, fun hfree => ?_⟩
  rw [hsame, ← Bool.not_eq_true'] at hfree
  have hseparate := hapart.separate_inherited
  rw [← hapart.filter_free hstart hembed, hsplit, List.filter_append,
    List.filter_cons_of_pos (p := (!l.blocks ·)) hfree] at hseparate
  obtain ⟨-, hpointers, hcross⟩ := List.pairwise_append.mp hseparate
  have hown := (hapart.free_iff hstart hembed hp).mp hfree
  refine Layout.takes_iff.mpr ⟨hapart.fits_pointer hown, fun g hg => ?_⟩
  rcases Layout.mem_of_mem_putAll hg with hg | hg
  · exact (List.pairwise_append.mp hpointers).2.2 g hg p List.mem_cons_self
  · have hg := (hapart.perm_embed hstart hembed).mem_iff.mp hg
    exact hcross g hg p (List.mem_append_right _ List.mem_cons_self)

/-- With its hidden pointers in place, the layout has the bases and these. -/
theorem perm_inherited :
    (l.putAll (t.ownPointers abi pointerSize)).fields.Perm
      (bases.map EmbeddedBase.field ++ t.ownPointers abi pointerSize) := by
  have hembedded := (hapart.perm_embed hstart hembed).append_right (t.ownPointers abi pointerSize)
  exact (Layout.perm_putAll (hapart.separate_inherited.perm hembedded.symm)).trans hembedded

/-- The data members evict nothing. -/
theorem takes_members : ∃ away l', l.placePointers (c.hiddenPointers abi pointerSize t) = .ok (away, l') ∧
    (0 < c.memberSize → l'.Takes (.undefined t.membersOffset c.memberSize)) := by
  refine ⟨_, _, hapart.placePointers_eq hstart hembed fun _ hp => hp, fun hsize => ?_⟩
  have hmembers : Field.undefined t.membersOffset c.memberSize ∈ c.ownMembers t := by
    simp [ownMembers, hsize]
  rw [hapart.filter_free hstart hembed]
  refine Layout.takes_iff.mpr ⟨hapart.fits _ (List.mem_append_right _ hmembers), fun g hg => ?_⟩
  have hg := (hapart.perm_inherited hstart hembed).mem_iff.mp hg
  exact (List.pairwise_append.mp hapart.separate).2.2 g hg _ hmembers

end

/-- **Composing a layout from nothing evicts nothing.** -/
theorem undisturbed : c.Undisturbed abi pointerSize t bases start := by
  obtain ⟨l, hembed⟩ := hapart.exists_embed start
  refine ⟨fun before b after hsplit => hapart.takes_base hstart hsplit, fun before p after hsplit => ?_, ?_⟩
  · obtain ⟨away, l', hplace, htakes⟩ := hapart.takes_pointer hstart hembed hsplit
    exact ⟨l, away, l', hembed, hplace, htakes⟩
  · obtain ⟨away, l', hplace, htakes⟩ := hapart.takes_members hstart hembed
    exact ⟨l, away, l', hembed, hplace, htakes⟩

/-- **A layout that is composed from nothing** has the fields of the class and no others. -/
theorem perm_of_compose {size : Word} {away : List Field} {l : Layout}
    (hcomp : c.compose abi pointerSize t bases size start = .ok (away, l)) :
    l.fields.Perm (c.fields abi pointerSize t bases) := by
  obtain ⟨-, hr⟩ := compose_ok_iff.mp hcomp
  obtain ⟨-, rfl⟩ := Prod.mk.inj hr
  obtain ⟨embedded, hembed⟩ := hapart.exists_embed start
  have hinherited := hapart.perm_inherited hstart hembed
  have hsame : start.inherited (bases.map EmbeddedBase.field) (c.hiddenPointers abi pointerSize t) =
      embedded.putAll (t.ownPointers abi pointerSize) := by
    rw [Layout.inherited, ← (Layout.embed_ok_iff.mp hembed).2, hapart.filter_free hstart hembed]
  change (start.composed _ _ _).fields.Perm _
  rw [Layout.composed, hsame]
  -- there is room for the data members, if there are any
  have hroom : (embedded.putAll (t.ownPointers abi pointerSize)).roomFor
      (.undefined t.membersOffset c.memberSize) = true ↔ 0 < c.memberSize := by
    rw [Layout.roomFor_iff]
    refine ⟨And.left, fun hsize => ⟨hsize, fun f hf => ?_⟩⟩
    exact (List.pairwise_append.mp hapart.separate).2.2 f (hinherited.mem_iff.mp hf) _
      (by simp [ownMembers, hsize])
  split
  · next h =>
    rw [fields, show c.ownMembers t = [_] from if_pos (hroom.mp h)]
    have hput := Layout.perm_put (Layout.roomFor_iff.mp h).2
    exact (hput.trans (hinherited.cons _)).trans (List.perm_append_singleton _ _).symm
  · next h =>
    rw [fields, show c.ownMembers t = [] from if_neg fun hsize => h (hroom.mpr hsize), List.append_nil]
    exact hinherited

end

end FieldsApart

end

end ClassType

end ClassRecovery
