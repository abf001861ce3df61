/-
  What composing keeps.

  A layout is composed on top of the fields that are there already.  A base evicts those that share a byte with
  it, a hidden pointer only such that do not guard their bytes, and the data members none.  So what a composed
  layout has of the fields from before, of the bases and of the hidden pointers can be told from the bytes that
  these share (`Layout.Preserves`).
-/
import ClassRecovery.Proofs.Layout.Bytes
import ClassRecovery.Proofs.Layout.Insertion

namespace ClassRecovery

namespace Layout

/-- What a layout has of the fields that were there `earlier`, of the bases that were embedded one after the
    other, and of the hidden pointers. -/
structure Preserves (earlier bases pointers : List Field) (l : Layout) : Prop where
  orderly : l.Orderly
  /-- A base is there unless a later one lies across it. -/
  embedded : ∀ before b after, bases = before ++ b :: after → (∀ b' ∈ after, ¬ b.Shares b') → b ∈ l.fields
  /-- An inherited field is still there unless a base lies across it. -/
  inherited : ∀ f ∈ earlier, f.Guards → (∀ b ∈ bases, ¬ f.Shares b) → f ∈ l.fields
  /-- Any field is still there unless a base lies across it, or a hidden pointer that was put in place. -/
  kept : ∀ f ∈ earlier, (∀ b ∈ bases, ¬ f.Shares b) →
    (∀ p ∈ pointers, p ∈ l.fields → ¬ f.Shares p) → f ∈ l.fields
  /-- A hidden pointer is there unless a base or an inherited field lies across it. -/
  placed : ∀ p ∈ pointers, (∀ b ∈ bases, ¬ b.Shares p) →
    (∀ f ∈ earlier, f.Guards → ¬ f.Shares p) → p ∈ l.fields

theorem Orderly.putAll {l : Layout} (hl : l.Orderly) {fields : List Field}
    (hfields : ∀ f ∈ fields, f.Fits) : (l.putAll fields).Orderly := by
  induction fields generalizing l with
  | nil => exact hl
  | cons f rest ih =>
    simp only [List.mem_cons, forall_eq_or_imp] at hfields
    exact ih (hl.put hfields.1) hfields.2

/-- Whether a layout is orderly is up to its fields. -/
theorem Orderly.of_fields {l l' : Layout} (hl : l.Orderly) (hfields : l'.fields = l.fields) : l'.Orderly :=
  ⟨hfields ▸ hl.filled, hfields ▸ hl.sorted, hfields ▸ hl.disjoint⟩

theorem Preserves.growTo {earlier bases pointers : List Field} {l : Layout}
    (h : Preserves earlier bases pointers l) (size : Word) :
    Preserves earlier bases pointers (l.growTo size) :=
  ⟨h.orderly.of_fields rfl, h.embedded, h.inherited, h.kept, h.placed⟩

section
variable {start : Layout} {bases pointers : List Field} {members : Field}
  (hc : Composable start bases pointers members) (hstart : start.Orderly)
include hc hstart

/-- **A composed layout is orderly** if the layout was on top of which it is composed. -/
theorem Composable.orderly : (start.composed bases pointers members).Orderly := by
  have hinherited : (start.inherited bases pointers).Orderly :=
    (hstart.putAll hc.fitBases).putAll fun p hp => hc.fitPointers p (mem_free hp).1 (mem_free hp).2
  unfold composed
  split
  · next hroom => exact hinherited.put (hc.fitMembers hroom)
  · exact hinherited

/-- A field that shares no byte with a base meets none. -/
theorem Composable.not_meets_bases {f : Field} (hf : f ∈ start.fields)
    (hclear : ∀ b ∈ bases, ¬ f.Shares b) : ∀ b ∈ bases, ¬ f.Meets b := fun b hb hmeets =>
  hclear b hb ((Field.overlaps_iff_shares (hc.fitBases b hb) (hstart.filled f hf)).mp hmeets)

/-- A hidden pointer is not blocked if it shares no byte with a base, nor with an inherited field. -/
theorem Composable.not_blocks {p : Field} (hfits : p.Fits) (hbases : ∀ b ∈ bases, ¬ b.Shares p)
    (hearlier : ∀ f ∈ start.fields, f.Guards → ¬ f.Shares p) : (start.putAll bases).blocks p = false := by
  rw [← Bool.not_eq_true, blocks_iff]
  rintro ⟨f, hf, hmeets, hguards⟩
  have hshares : f.Shares p :=
    (Field.overlaps_iff_shares hfits ((hstart.putAll hc.fitBases).filled f hf)).mp hmeets
  rcases mem_of_mem_putAll hf with hf | hf
  · exact hbases f hf hshares
  · exact hearlier f hf hguards hshares

end

/-- A hidden pointer that is not blocked is there, if no two of them share a byte. -/
theorem mem_composed_of_not_blocks {start : Layout} {bases pointers : List Field} (members : Field)
    (hseparate : Separate pointers) {p : Field} (hp : p ∈ pointers)
    (hfree : (start.putAll bases).blocks p = false) :
    p ∈ (start.composed bases pointers members).fields := by
  refine mem_composed.mpr (.inl (mem_putAll.mpr (.inl ?_)))
  exact survives_of_pairwise (List.Pairwise.sublist List.filter_sublist hseparate)
    (List.mem_filter.mpr ⟨hp, by rw [hfree, Bool.not_false]⟩)

/-- **What composing keeps.** -/
theorem Composable.preserves {start : Layout} {bases pointers : List Field} {members : Field}
    (hc : Composable start bases pointers members) (hstart : start.Orderly)
    (hbases : ∀ b ∈ bases, b.Guards) (hpointers : ∀ p ∈ pointers, ¬ p.Guards ∧ p.Fits)
    (hseparate : Separate pointers) (hmembers : ¬ members.Guards) :
    Preserves start.fields bases pointers (start.composed bases pointers members) where
  orderly := hc.orderly hstart
  embedded before b after hsplit hclear := by
    have hmem {b' : Field} (hb' : b' ∈ b :: after) : b' ∈ bases :=
      hsplit ▸ List.mem_append_right before hb'
    have hb := hmem List.mem_cons_self
    refine (mem_composed_of_guards (fun p hp => (hpointers p hp).1) hmembers (hbases b hb)).mpr ?_
    refine mem_putAll.mpr (.inl (hsplit ▸ survives_append.mpr (.inr (.inl ⟨rfl, fun b' hb' => ?_⟩))))
    have hfits := hc.fitBases b' (hmem (List.mem_cons_of_mem _ hb'))
    exact fun hmeets => hclear b' hb' ((Field.overlaps_iff_shares hfits (hc.fitBases b hb).1).mp hmeets)
  inherited f hf hguards hclear := by
    refine (mem_composed_of_guards (fun p hp => (hpointers p hp).1) hmembers hguards).mpr ?_
    exact mem_putAll.mpr (.inr ⟨hf, hc.not_meets_bases hstart hf hclear⟩)
  kept f hf hclear hclear' := by
    refine mem_composed.mpr (.inl (mem_putAll.mpr (.inr ⟨?_, fun p hp hmeets => ?_⟩)))
    · exact mem_putAll.mpr (.inr ⟨hf, hc.not_meets_bases hstart hf hclear⟩)
    · obtain ⟨hp, hfree⟩ := mem_free hp
      refine hclear' p hp (mem_composed_of_not_blocks members hseparate hp hfree) ?_
      exact (Field.overlaps_iff_shares (hpointers p hp).2 (hstart.filled f hf)).mp hmeets
  placed p hp hclear hearlier :=
    mem_composed_of_not_blocks members hseparate hp
      (hc.not_blocks hstart (hpointers p hp).2 hclear hearlier)

end Layout

end ClassRecovery
