/-
  Without virtual inheritance the ABIs agree.

  The ABIs differ in which classes get a virtual pointer of their own, and in virtual base pointers.  Where
  there is no virtual inheritance and no offsets are recorded, a base with a virtual pointer can always be
  primary, so the first difference is not seen: a class begins with its primary base, or else needs a
  virtual pointer exactly if it has virtual functions (`Front.of_plain`).  Nobody needs a virtual base
  pointer.  So tables and errors are the same under all ABIs (`resolve_agrees`).
-/
import ClassRecovery.Proofs.Offsets.PointerOwners

namespace ClassRecovery

open Hierarchy

/-! ## One class -/

/-- The base is not virtual and has nothing to do with virtual bases, and it is not recorded where it is. -/
structure BasePart.Plain (p : BasePart) : Prop where
  isVirtual : p.spec.isVirtual = false
  offset : p.spec.offset = none
  hasVirtualBases : p.table.hasVirtualBases = false
  vbptrOffset : p.table.vbptrOffset = none

theorem BasePart.Plain.canBePrimary {p : BasePart} (hp : p.Plain) : p.canBePrimary = p.table.isDynamic := by
  rw [BasePart.canBePrimary, hp.offset, Option.all_none, Bool.and_true]

section
variable {c : ClassType} {abi : Abi} {pointerSize : Word} {parts : List BasePart}
  (hc : c.hasVirtualBases = false) (hparts : ∀ p ∈ parts, p.Plain)
include hparts

theorem BasePart.any_hasVirtualBases_of_plain : parts.any (·.table.hasVirtualBases) = false :=
  List.any_eq_false.mpr fun p hp => by rw [(hparts p hp).hasVirtualBases]; exact Bool.false_ne_true

/-- Without a vbptr among the bases none is inherited. -/
theorem inheritedVbptr?_of_plain {ahead : Bool} {e e' : Extent} {placed : List PlacedBase}
    (h : placeBases ahead parts e = some (placed, e')) : inheritedVbptr? placed = some none := by
  have hnone : ∀ b ∈ placed, b.table.vbptrOffset = none := fun b hb => by
    obtain ⟨p, hp, -, htable⟩ := forall₂_mem_right (placeBases_forall₂ h) hb
    rw [htable, (hparts p hp).vbptrOffset]
  clear h
  induction placed with
  | nil => rfl
  | cons b rest ih =>
    simp only [List.mem_cons, forall_eq_or_imp] at hnone
    rw [inheritedVbptr?, hnone.1]
    exact ih hnone.2

include hc

/-- What an object begins with does not depend on the ABI. -/
theorem Front.of_plain :
    Front.of (c.needsVptr abi parts) pointerSize parts = Front.of c.isPolymorphic pointerSize parts := by
  rw [Front.of, Front.of]
  cases hfind : parts.find? BasePart.canBePrimary with
  | some p => rfl
  | none =>
    have hdynamic : parts.any (·.table.isDynamic) = false := List.any_eq_false.mpr fun p hp => by
      rw [← (hparts p hp).canBePrimary]
      exact List.find?_eq_none.mp hfind p hp
    cases abi with
    | itanium =>
      rw [ClassType.needsVptr, hc, BasePart.any_hasVirtualBases_of_plain hparts, hdynamic]
      simp only [Bool.or_false]
    | msvc => rfl

end

/-- The non-virtual part where neither the ABI nor virtual bases matter. -/
def ClassType.plainPart? (c : ClassType) (pointerSize : Word) (parts : List BasePart) :
    Option NonVirtualPart := do
  let front := Front.of c.isPolymorphic pointerSize parts
  let (bases, extent) ← placeBases true parts front.extent
  let (membersOffset, extent) ← c.placeMembers extent
  let size ← extent.closed
  return ⟨front, none, false, bases, membersOffset, ⟨size, extent.align⟩⟩

section
variable {c : ClassType} {parts : List BasePart} (hc : c.hasVirtualBases = false)
  (hparts : ∀ p ∈ parts, p.Plain)
include hc hparts

theorem ClassType.nonVirtualPart?_plain (abi : Abi) (pointerSize : Word) :
    c.nonVirtualPart? abi pointerSize parts = c.plainPart? pointerSize parts := by
  have hall : parts.filter (fun p => !p.spec.isVirtual) = parts :=
    List.filter_eq_self.mpr fun p hp => by rw [(hparts p hp).isVirtual]; rfl
  simp only [nonVirtualPart?, plainPart?, hall, Front.of_plain hc hparts, hc,
    BasePart.any_hasVirtualBases_of_plain hparts, Bool.or_false, Bool.and_false, Bool.false_and, placeVbptr,
    Bool.false_eq_true, if_false, bind, pure, Option.bind_some]
  cases hplace : placeBases true parts (Front.of c.isPolymorphic pointerSize parts).extent with
  | none => rfl
  | some placed =>
    simp only [Option.bind_some, inheritedVbptr?_of_plain hparts hplace, ite_self]

/-- Placing the bases of a class does not depend on the ABI. -/
theorem ClassType.offsetTable_plain (abi abi' : Abi) (pointerSize : Word)
    (tableOf : ClassId → Option BaseOffsetTable) :
    c.offsetTable abi pointerSize parts tableOf = c.offsetTable abi' pointerSize parts tableOf := by
  rw [offsetTable, offsetTable, nonVirtualPart?_plain hc hparts, nonVirtualPart?_plain hc hparts]

end

/-! ## All classes -/

namespace Hierarchy

/-- No class that can be reached has a virtual base, or a base with a recorded offset. -/
def Plain (h : Hierarchy) : ClassId → Prop :=
  h.Throughout fun c => ∀ spec ∈ c.bases, spec.isVirtual = false ∧ spec.offset = none

variable {h : Hierarchy}

theorem Plain.not_virtualBase {a : ClassId} (hp : h.Plain a) : ¬ ∃ v, h.VirtualBase a v := by
  rintro ⟨v, d, c, hd, hc, spec, hspec, hvirtual, -⟩
  rw [(hp d c hd hc spec hspec).1] at hvirtual
  cases hvirtual

theorem Plain.listed {a : ClassId} (hp : h.Plain a) : h.listed.Plain a := by
  intro d c hd hc
  rw [get?_listed, Option.map_eq_some_iff] at hc
  obtain ⟨c, hc, rfl⟩ := hc
  exact hp d c (h.reaches_listed ▸ hd) hc

/-- Classes without virtual inheritance are placed alike under all ABIs. -/
theorem Plain.placesAlike {h' : Hierarchy} {a : ClassId} (hp : h.Plain a) (hclasses : h.classes = h'.classes)
    (hptr : h.pointerSize = h'.pointerSize) : h.PlacesAlike h' a := by
  refine ⟨fun d _ => by rw [hclasses], fun {d c parts} tableOf hd hc hspecs hparts => ?_⟩
  have hspec := hp d c hd hc
  rw [hptr]
  refine ClassType.offsetTable_plain (List.any_eq_false.mpr fun spec hs => ?_) (fun p hpart => ?_)
    h.abi h'.abi _ tableOf
  · rw [(hspec spec hs).1]
    exact Bool.false_ne_true
  · have hres := hparts p hpart
    have hbelow : h.Plain p.spec.base := hp.base (hd.trans (.single (directBase_of_part hc hspecs hpart)))
    obtain ⟨hvirtual, hoffset⟩ := hspec p.spec (hspecs ▸ List.mem_map_of_mem hpart)
    refine ⟨hvirtual, hoffset, ?_, ?_⟩
    · rw [← Bool.not_eq_true, hres.hasVirtualBases_iff]
      exact hbelow.not_virtualBase
    · rw [← Option.not_isSome_iff_eq_none, hres.isSome_vbptrOffset_iff]
      exact fun hsome => hbelow.not_virtualBase hsome.2

end Hierarchy

/-- **Without virtual inheritance the ABIs agree**: for any classes, a class from which no virtual base and
    no recorded offset can be reached has the same table under both ABIs, or fails with the same error,
    whatever was resolved before. -/
theorem resolve_agrees (classes : OrderedMap ClassId ClassType) (pointerSize : Word) (id : ClassId)
    (earlier earlier' : List ClassId) (hplain : Hierarchy.Plain ⟨.itanium, pointerSize, classes⟩ id) :
    let itanium : Hierarchy := ⟨.itanium, pointerSize, classes⟩
    let msvc : Hierarchy := ⟨.msvc, pointerSize, classes⟩
    (itanium.resolve id (itanium.memoAfter earlier)).1 = (msvc.resolve id (msvc.memoAfter earlier')).1 := by
  intro itanium msvc
  have hitanium := (resolvedWith_listed (itanium.sound_memoAfter earlier) id).answers
  have hmsvc := (resolvedWith_listed (msvc.sound_memoAfter earlier') id).answers
  have hsame : itanium.listed.PlacesAlike msvc.listed id := hplain.listed.placesAlike rfl rfl
  exact (hitanium.transfer hsame).unique hmsvc

/-- The base with virtual functions is declared second, and the class itself has none. -/
theorem resolve_agrees_second :
    let classes : OrderedMap ClassId ClassType := .ofList
      [(1, { id := 1, name := "Plain", memberSize := 4, memberAlign := 4 }),
        (2, { id := 2, name := "Shape", vtable := some (.ofTargets 4096 1 8 [8192]), memberSize := 2 }),
        (3, { id := 3, name := "Widget", bases := [⟨1, false, true, none⟩, ⟨2, false, true, none⟩] })]
    let itanium : Hierarchy := ⟨.itanium, 8, classes⟩
    let msvc : Hierarchy := ⟨.msvc, 8, classes⟩
    itanium.Plain 3 ∧ (itanium.resolve 3 []).1 = (msvc.resolve 3 []).1 ∧
      (msvc.resolve 3 []).1.toOption.map (·.primaryBase) = some (some 2) := by
  intro classes itanium msvc
  have hplain : itanium.Plain 3 := throughout_of_forall (by decide +kernel)
  exact ⟨hplain, resolve_agrees classes 8 3 [] [] hplain, by decide +kernel⟩

end ClassRecovery
