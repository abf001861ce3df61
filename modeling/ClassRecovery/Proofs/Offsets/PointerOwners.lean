/-
  Which classes have hidden pointers, and whose these are.

  Whether a class has a virtual pointer is decided from the tables of its direct bases, and yet it can be
  read off the graph of classes that can be reached (`Resolves.isDynamic_iff_itanium`,
  `Resolves.isDynamic_iff_msvc`), and so it is with virtual base pointers
  (`Resolves.isSome_vbptrOffset_iff`).  The virtual pointer of a class is its own or that of its primary
  base, and then its primary base's own or that of the next, until one class owns it
  (`Resolves.existsUnique_owner`).
-/
import ClassRecovery.Proofs.Offsets.DeclarationOrder

namespace ClassRecovery

open Hierarchy

/-! ## Steps without virtual inheritance -/

namespace Hierarchy

variable {h : Hierarchy}

/-- The class has a valid table of virtual functions of its own. -/
def Polymorphic (h : Hierarchy) (a : ClassId) : Prop :=
  ∃ c, h.classes.get? a = some c ∧ c.isPolymorphic = true

/-- `b` is a direct base of `a` that is not virtual. -/
def NonVirtualBase (h : Hierarchy) (a b : ClassId) : Prop :=
  ∃ c, h.classes.get? a = some c ∧ ∃ spec ∈ c.bases, spec.isVirtual = false ∧ spec.base = b

/-- `b` is `a`, or a base of `a` without virtual steps between. -/
def ReachesNonVirtually (h : Hierarchy) : ClassId → ClassId → Prop := Relation.ReflTransGen h.NonVirtualBase

/-- What is said of some class that can be reached is said of the class itself, or of one that a step leads
    to. -/
theorem exists_reflTransGen_iff {r : ClassId → ClassId → Prop} {P : ClassId → Prop} {a : ClassId} :
    (∃ d, Relation.ReflTransGen r a d ∧ P d) ↔ P a ∨ ∃ b, r a b ∧ ∃ d, Relation.ReflTransGen r b d ∧ P d := by
  constructor
  · rintro ⟨d, hd, hP⟩
    rcases Relation.ReflTransGen.cases_head hd with rfl | ⟨b, hb, hd⟩
    · exact .inl hP
    · exact .inr ⟨b, hb, d, hd, hP⟩
  · rintro (hP | ⟨b, hb, d, hd, hP⟩)
    · exact ⟨a, .refl, hP⟩
    · exact ⟨d, .head hb hd, hP⟩

theorem polymorphic_iff {a : ClassId} {c : ClassType} (hc : h.classes.get? a = some c) :
    h.Polymorphic a ↔ c.isPolymorphic = true := by
  refine ⟨?_, fun hp => ⟨c, hc, hp⟩⟩
  rintro ⟨c', hc', hp⟩
  rwa [Option.some.inj (hc'.symm.trans hc)] at hp

end Hierarchy

/-! ## Virtual pointers -/

theorem Front.isSome_vptrOffset (needsVptr : Bool) (pointerSize : Word) (nonVirtual : List BasePart) :
    (Front.of needsVptr pointerSize nonVirtual).vptrOffset.isSome =
      (nonVirtual.any BasePart.canBePrimary || needsVptr) := by
  rw [Front.of]
  cases hfind : nonVirtual.find? BasePart.canBePrimary with
  | some p =>
    have hany : nonVirtual.any BasePart.canBePrimary = true :=
      List.any_eq_true.mpr ⟨p, List.mem_of_find?_eq_some hfind, List.find?_some hfind⟩
    rw [hany, Bool.true_or]
    rfl
  | none =>
    have hany : nonVirtual.any BasePart.canBePrimary = false :=
      List.any_eq_false.mpr (List.find?_eq_none.mp hfind)
    rw [hany, Bool.false_or]
    cases needsVptr <;> rfl

section
variable {h : Hierarchy} {id : ClassId} {t : BaseOffsetTable}

theorem Resolves.hasVirtualBases_iff (hr : Resolves h id t) :
    t.hasVirtualBases = true ↔ ∃ v, h.VirtualBase id v := by
  simp only [← hr.mem_virtualBases_iff.2, BaseOffsetTable.hasVirtualBases, BaseOffsetTable.virtualBases,
    List.any_eq_true, List.mem_map, List.mem_filter]
  constructor
  · rintro ⟨s, hs⟩
    exact ⟨s.base, s, hs, rfl⟩
  · rintro ⟨v, s, hs, -⟩
    exact ⟨s, hs⟩

namespace Hierarchy.Assembled

variable {c : ClassType} {parts : List BasePart} {nv : NonVirtualPart} {own shared : List Block}
  (ha : h.Assembled id c parts t nv own shared)
include ha

theorem isDynamic_iff : t.isDynamic = true ↔
    (∃ p ∈ parts, p.spec.isVirtual = false ∧ p.canBePrimary = true) ∨ c.needsVptr h.abi parts = true := by
  obtain ⟨_, hassembles⟩ := ha.assembles
  have hfront := (ClassType.nonVirtualPart?_eq_some hassembles.nonVirtual).1
  rw [BaseOffsetTable.isDynamic, hassembles.vptr.1, hfront, Front.isSome_vptrOffset]
  simp only [Bool.or_eq_true, List.any_eq_true, List.mem_filter, Bool.not_eq_true', and_assoc]

/-- A class has a virtual base if a direct base is one, or has one. -/
theorem exists_virtualBase_iff :
    (c.hasVirtualBases || parts.any (·.table.hasVirtualBases)) = true ↔ ∃ v, h.VirtualBase id v := by
  simp only [Bool.or_eq_true, ClassType.hasVirtualBases, List.any_eq_true, Hierarchy.virtualBase_iff ha.defined]
  constructor
  · rintro (⟨spec, hspec, hv⟩ | ⟨p, hp, hv⟩)
    · exact ⟨_, spec, hspec, .inl ⟨hv, rfl⟩⟩
    · obtain ⟨v, hv⟩ := (ha.parts_resolved p hp).hasVirtualBases_iff.mp hv
      exact ⟨v, p.spec, ha.specs ▸ List.mem_map_of_mem hp, .inr hv⟩
  · rintro ⟨v, spec, hspec, ⟨hv, -⟩ | hv⟩
    · exact .inl ⟨spec, hspec, hv⟩
    · obtain ⟨p, hp, rfl⟩ := List.mem_map.mp (ha.specs ▸ hspec)
      exact .inr ⟨p, hp, (ha.parts_resolved p hp).hasVirtualBases_iff.mpr ⟨v, hv⟩⟩

end Hierarchy.Assembled

/-- **Who has a virtual pointer under the Itanium ABI**: a class with virtual functions or virtual bases
    anywhere behind it. -/
theorem Resolves.isDynamic_iff_itanium (hr : Resolves h id t) (habi : h.abi = .itanium) :
    t.isDynamic = true ↔
      (∃ d, h.Reaches id d ∧ h.Polymorphic d) ∨ ∃ v, h.VirtualBase id v := by
  refine hr.inherits_induction (P := fun id t => t.isDynamic = true ↔
    (∃ d, h.Reaches id d ∧ h.Polymorphic d) ∨ ∃ v, h.VirtualBase id v) ?_
  intro id t hr ih
  obtain ⟨c, parts, nv, own, shared, ha⟩ := hr.assembled
  have hpart {p : BasePart} (hp : p ∈ parts) : h.DirectBase id p.spec.base ∧ (p.table.isDynamic = true ↔
      (∃ d, h.Reaches p.spec.base d ∧ h.Polymorphic d) ∨ ∃ v, h.VirtualBase p.spec.base v) := by
    have hstep := directBase_of_part ha.defined ha.specs hp
    exact ⟨hstep, ih _ _ (.single hstep) (ha.parts_resolved p hp)⟩
  have hneeds : t.isDynamic = true ↔
      h.Polymorphic id ∨ (∃ v, h.VirtualBase id v) ∨ ∃ p ∈ parts, p.table.isDynamic = true := by
    rw [ha.isDynamic_iff, habi, polymorphic_iff ha.defined, ← ha.exists_virtualBase_iff]
    simp only [ClassType.needsVptr, Bool.or_eq_true, List.any_eq_true, BasePart.canBePrimary, Bool.and_eq_true]
    constructor
    · rintro (⟨p, hp, -, hdynamic, -⟩ | ((hpoly | hvirtual) | hvirtual) | hdynamic)
      · exact .inr (.inr ⟨p, hp, hdynamic⟩)
      · exact .inl hpoly
      · exact .inr (.inl (.inl hvirtual))
      · exact .inr (.inl (.inr hvirtual))
      · exact .inr (.inr hdynamic)
    · rintro (hpoly | (hvirtual | hvirtual) | hdynamic)
      · exact .inr (.inl (.inl (.inl hpoly)))
      · exact .inr (.inl (.inl (.inr hvirtual)))
      · exact .inr (.inl (.inr hvirtual))
      · exact .inr (.inr hdynamic)
  rw [hneeds, Hierarchy.Reaches, exists_reflTransGen_iff]
  constructor
  · rintro (hpoly | hvirtual | ⟨p, hp, hdynamic⟩)
    · exact .inl (.inl hpoly)
    · exact .inr hvirtual
    · obtain ⟨hstep, hiff⟩ := hpart hp
      rcases hiff.mp hdynamic with hpoly | ⟨v, d, c', hreach, hspec⟩
      · exact .inl (.inr ⟨_, hstep, hpoly⟩)
      · exact .inr ⟨v, d, c', .head hstep hreach, hspec⟩
  · rintro ((hpoly | ⟨b, hstep, hpoly⟩) | hvirtual)
    · exact .inl hpoly
    · obtain ⟨p, hp, rfl⟩ := part_of_directBase ha.defined ha.specs hstep
      exact .inr (.inr ⟨p, hp, (hpart hp).2.mpr (.inl hpoly)⟩)
    · exact .inr (.inl hvirtual)

/-- **Who has a virtual pointer under the Microsoft ABI**, where no offsets are recorded: a class with
    virtual functions, or with a base outside of virtual bases that has some. -/
theorem Resolves.isDynamic_iff_msvc (hr : Resolves h id t) (habi : h.abi = .msvc) (hu : h.Unrecorded id) :
    t.isDynamic = true ↔ ∃ d, h.ReachesNonVirtually id d ∧ h.Polymorphic d := by
  revert hu
  refine hr.inherits_induction (P := fun id t => h.Unrecorded id → (t.isDynamic = true ↔
    ∃ d, h.ReachesNonVirtually id d ∧ h.Polymorphic d)) ?_
  intro id t hr ih hu
  obtain ⟨c, parts, nv, own, shared, ha⟩ := hr.assembled
  have hpart {p : BasePart} (hp : p ∈ parts) (hv : p.spec.isVirtual = false) :
      p.canBePrimary = true ↔ ∃ d, h.ReachesNonVirtually p.spec.base d ∧ h.Polymorphic d := by
    have hspec : p.spec ∈ c.bases := ha.specs ▸ List.mem_map_of_mem hp
    have hstep := directBase_of_part ha.defined ha.specs hp
    rw [BasePart.canBePrimary, hu id c .refl ha.defined p.spec hspec hv, Option.all_none, Bool.and_true]
    exact ih _ _ (.single hstep) (ha.parts_resolved p hp) (hu.base (.single hstep))
  rw [ha.isDynamic_iff, habi, ReachesNonVirtually, exists_reflTransGen_iff, polymorphic_iff ha.defined, or_comm]
  refine or_congr Iff.rfl ⟨?_, ?_⟩
  · rintro ⟨p, hp, hv, hdynamic⟩
    have hspec : p.spec ∈ c.bases := ha.specs ▸ List.mem_map_of_mem hp
    exact ⟨p.spec.base, ⟨c, ha.defined, p.spec, hspec, hv, rfl⟩, (hpart hp hv).mp hdynamic⟩
  · rintro ⟨b, ⟨c', hc', spec, hspec, hv, rfl⟩, hpoly⟩
    obtain rfl := Option.some.inj (ha.defined.symm.trans hc')
    obtain ⟨p, hp, rfl⟩ := List.mem_map.mp (ha.specs ▸ hspec)
    exact ⟨p, hp, hv, (hpart hp hv).mpr hpoly⟩

/-! ## Whose a virtual pointer is -/

/-- `b` is the primary base of `a`. -/
def Hierarchy.PrimaryBase (h : Hierarchy) (a b : ClassId) : Prop :=
  ∃ t, Resolves h a t ∧ t.primaryBase = some b

/-- The class has a virtual pointer of its own. -/
def Hierarchy.OwnsVptr (h : Hierarchy) (a : ClassId) : Prop := ∃ t, Resolves h a t ∧ t.ownsVptr = true

/-- A class with a virtual pointer has its primary bases share it. -/
theorem Resolves.isDynamic_of_primary (hr : Resolves h id t) (hdynamic : t.isDynamic = true) {d : ClassId}
    (hd : Relation.ReflTransGen h.PrimaryBase id d) : ∃ td, Resolves h d td ∧ td.isDynamic = true := by
  induction hd with
  | refl => exact ⟨t, hr, hdynamic⟩
  | tail _ hstep _ =>
    obtain ⟨td, htd, hbase⟩ := hstep
    cases htd.beginsWith with
    | nothing _ _ hnone | ownVptr _ _ hnone =>
      rw [hnone] at hbase
      cases hbase
    | primary _ _ hsome _ _ hts htsd =>
      rw [hsome, Option.some.injEq] at hbase
      exact ⟨_, hbase ▸ hts, htsd⟩

/-- **One class owns a virtual pointer** of all that share it: following primary bases ends there. -/
theorem Resolves.existsUnique_owner (hr : Resolves h id t) (hdynamic : t.isDynamic = true) :
    ∃! d, Relation.ReflTransGen h.PrimaryBase id d ∧ h.OwnsVptr d := by
  revert hdynamic
  refine hr.inherits_induction (P := fun id t => t.isDynamic = true →
    ∃! d, Relation.ReflTransGen h.PrimaryBase id d ∧ h.OwnsVptr d) ?_
  intro id t hr ih hdynamic
  -- the primary base of the class is that of its table
  have hbase {b : ClassId} (hb : h.PrimaryBase id b) : t.primaryBase = some b := by
    obtain ⟨t', hr', hb⟩ := hb
    exact hr.unique hr' ▸ hb
  cases hr.beginsWith with
  | nothing hnone _ _ =>
    rw [BaseOffsetTable.isDynamic, hnone] at hdynamic
    cases hdynamic
  | ownVptr _ howns hnone =>
    refine ⟨id, ⟨.refl, t, hr, howns⟩, fun d hd => ?_⟩
    rcases Relation.ReflTransGen.cases_head hd.1 with rfl | ⟨b, hb, -⟩
    · rfl
    · rw [hbase hb] at hnone
      cases hnone
  | @primary s ts _ hnot hsome hs _ hts htsd =>
    have hinherits := hr.inherits_of_mem s (BaseOffsetTable.mem_entries_of_ownBases hs)
    obtain ⟨d, ⟨hd, howns⟩, hunique⟩ := ih s.base ts hinherits hts htsd
    refine ⟨d, ⟨.head ⟨t, hr, hsome⟩ hd, howns⟩, fun d' hd' => ?_⟩
    rcases Relation.ReflTransGen.cases_head hd'.1 with rfl | ⟨b, hb, hrest⟩
    · obtain ⟨t', hr', howns'⟩ := hd'.2
      rw [← hr.unique hr', hnot] at howns'
      cases howns'
    · obtain rfl := Option.some.inj (hsome.symm.trans (hbase hb))
      exact hunique d' ⟨hrest, hd'.2⟩

/-! ## Virtual base pointers -/

/-- Whether a class owns its virtual base pointer, and where it is if not. -/
theorem ClassType.nonVirtualPart?_vbptr {c : ClassType} {abi : Abi} {pointerSize : Word} {parts : List BasePart}
    {nv : NonVirtualPart} (h : c.nonVirtualPart? abi pointerSize parts = some nv) :
    nv.ownsVbptr = (abi.usesVirtualBasePointer &&
        (c.hasVirtualBases || parts.any (·.table.hasVirtualBases)) &&
        !nv.bases.any (·.table.vbptrOffset.isSome)) ∧
      (nv.ownsVbptr = false →
        if abi.usesVirtualBasePointer then inheritedVbptr? nv.bases = some nv.vbptrOffset
        else nv.vbptrOffset = none) := by
  have htables : nv.bases.map (·.table) = (parts.filter fun p => !p.spec.isVirtual).map (·.table) :=
    map_eq_of_forall₂ (nonVirtualPart?_bases h) fun _ _ hb => hb.2
  have hany : nv.bases.any (·.table.vbptrOffset.isSome) =
      (parts.filter fun p => !p.spec.isVirtual).any (·.table.vbptrOffset.isSome) := by
    have hsame := congrArg (List.any · (·.vbptrOffset.isSome)) htables
    simpa only [List.any_map, Function.comp_def] using hsame
  rw [hany]
  clear htables hany
  simp only [nonVirtualPart?, bind, pure, Option.bind_eq_some_iff, Prod.exists] at h
  obtain ⟨ownVbptr, e₁, hvbptr, bases, e₂, -, h⟩ := h
  have hown := (stacked_of_placeVbptr hvbptr).2
  split at h <;> simp only [Option.bind_eq_some_iff, Option.some.injEq, Prod.exists] at h
  · next hinherits =>
    obtain ⟨vbptrOffset, hvbptrOffset, _, _, -, _, -, rfl⟩ := h
    simp only [Bool.and_eq_true] at hinherits
    exact ⟨rfl, fun _ => by rwa [if_pos hinherits.1]⟩
  · next hnot =>
    obtain ⟨_, rfl, _, _, -, _, -, rfl⟩ := h
    refine ⟨rfl, fun howns => ?_⟩
    simp only at howns
    cases huses : abi.usesVirtualBasePointer with
    | true =>
      rw [howns, huses] at hnot
      exact absurd rfl hnot
    | false => exact hown howns

theorem inheritedVbptr?_eq_some {bases : List PlacedBase} {vbptr : Option Word}
    (h : inheritedVbptr? bases = some vbptr) :
    vbptr.isSome = bases.any (·.table.vbptrOffset.isSome) ∧
      ∀ o ∈ vbptr, ∃ b ∈ bases, ∃ inner, b.table.vbptrOffset = some inner ∧
        o.toNat = b.offset.toNat + inner.toNat := by
  induction bases with
  | nil =>
    obtain rfl := Option.some.inj h
    exact ⟨rfl, by simp⟩
  | cons b rest ih =>
    rw [inheritedVbptr?] at h
    cases hinner : b.table.vbptrOffset with
    | some inner =>
      rw [hinner] at h
      obtain ⟨o, ho, rfl⟩ := Option.map_eq_some_iff.mp h
      refine ⟨by simp [hinner], ?_⟩
      rintro _ ⟨⟩
      exact ⟨b, List.mem_cons_self, inner, hinner, checkedAdd_eq_some_iff.mp ho⟩
    | none =>
      rw [hinner] at h
      obtain ⟨hsome, hat⟩ := ih h
      refine ⟨by simp [hsome, hinner], fun o ho => ?_⟩
      obtain ⟨b', hb', hinner'⟩ := hat o ho
      exact ⟨b', List.mem_cons_of_mem _ hb', hinner'⟩

/-- **Who has a virtual base pointer**: under an ABI that has them, a class with virtual bases. -/
theorem Resolves.isSome_vbptrOffset_iff (hr : Resolves h id t) :
    t.vbptrOffset.isSome = true ↔ h.abi.usesVirtualBasePointer = true ∧ ∃ v, h.VirtualBase id v := by
  refine hr.inherits_induction (P := fun id t => t.vbptrOffset.isSome = true ↔
    h.abi.usesVirtualBasePointer = true ∧ ∃ v, h.VirtualBase id v) ?_
  intro id t hr ih
  obtain ⟨c, parts, nv, own, shared, ha⟩ := hr.assembled
  obtain ⟨_, hassembles⟩ := ha.assembles
  obtain ⟨howns, hinherits⟩ := ClassType.nonVirtualPart?_vbptr hassembles.nonVirtual
  rw [hassembles.vbptr.1, ← ha.exists_virtualBase_iff]
  -- a base with a virtual base pointer has virtual bases
  have hbases : nv.bases.any (·.table.vbptrOffset.isSome) = true → h.abi.usesVirtualBasePointer = true ∧
      (c.hasVirtualBases || parts.any (·.table.hasVirtualBases)) = true := by
    intro hany
    obtain ⟨b, hb, hsome⟩ := List.any_eq_true.mp hany
    obtain ⟨hinherits, hres⟩ := ha.bases_resolved b hb
    obtain ⟨huses, v, d, c', hreach, hspec⟩ := (ih _ _ hinherits hres).mp hsome
    exact ⟨huses, ha.exists_virtualBase_iff.mpr ⟨v, d, c', hinherits.to_reflTransGen.trans hreach, hspec⟩⟩
  cases hnv : nv.ownsVbptr with
  | true =>
    rw [hnv, eq_comm, Bool.and_eq_true, Bool.and_eq_true] at howns
    have hsome := hr.isSome_of_owns.2 (hassembles.vbptr.2.trans hnv)
    exact iff_of_true (hassembles.vbptr.1 ▸ hsome) howns.1
  | false =>
    have hvbptr := hinherits hnv
    split at hvbptr
    · next huses =>
      rw [(inheritedVbptr?_eq_some hvbptr).1]
      refine ⟨hbases, fun hhas => ?_⟩
      rw [hnv, hhas.1, hhas.2, Bool.true_and, Bool.true_and, eq_comm, Bool.not_eq_false'] at howns
      exact howns
    · next huses =>
      rw [hvbptr]
      exact iff_of_false (by simp) fun hhas => huses hhas.1

/-- A virtual base pointer that is not the class's own is that of a direct base. -/
theorem Resolves.exists_vbptr (hr : Resolves h id t) {o : Word} (ho : t.vbptrOffset = some o)
    (howns : t.ownsVbptr = false) : ∃ s ∈ t.ownBases, ∃ ts inner, Resolves h s.base ts ∧
      ts.vbptrOffset = some inner ∧ o.toNat = s.offset.toNat + inner.toNat := by
  obtain ⟨c, parts, nv, own, shared, ha⟩ := hr.assembled
  obtain ⟨_, hassembles⟩ := ha.assembles
  rw [hassembles.vbptr.1] at ho
  have hvbptr := (ClassType.nonVirtualPart?_vbptr hassembles.nonVirtual).2 (hassembles.vbptr.2 ▸ howns)
  split at hvbptr
  · obtain ⟨b, hb, inner, hinner, hsum⟩ := (inheritedVbptr?_eq_some hvbptr).2 o ho
    exact ⟨b.ownHead, ha.map_ownHead ▸ List.mem_map_of_mem hb, b.table, inner,
      (ha.bases_resolved b hb).2, hinner, hsum⟩
  · rw [ho] at hvbptr
    cases hvbptr

end

namespace ClassModel

/-- `b` is the primary base of `a`. -/
def PrimaryBase (m : ClassModel) (a b : ClassId) : Prop :=
  ∃ t, (m.offsetTable a).1 = .ok t ∧ t.primaryBase = some b

/-- The class has a virtual pointer of its own. -/
def OwnsVptr (m : ClassModel) (a : ClassId) : Prop := ∃ t, (m.offsetTable a).1 = .ok t ∧ t.ownsVptr = true

namespace Coherent

variable {m : ClassModel} (hm : m.Coherent)
include hm

theorem offsetTable_iff {id : ClassId} {t : BaseOffsetTable} :
    (m.offsetTable id).1 = .ok t ↔ Resolves m.hierarchy id t :=
  ⟨hm.resolves, hm.offsetTable_eq⟩

theorem primaryBase_eq : m.PrimaryBase = m.hierarchy.PrimaryBase := by
  funext a b
  simp only [PrimaryBase, Hierarchy.PrimaryBase, hm.offsetTable_iff]

theorem ownsVptr_eq : m.OwnsVptr = m.hierarchy.OwnsVptr := by
  funext a
  simp only [OwnsVptr, Hierarchy.OwnsVptr, hm.offsetTable_iff]

end Coherent

/-- **Hidden pointers are where the ABI puts them.**  A virtual pointer begins the object.  Primary bases
    share it, each at the beginning of the class it is the primary base of, down to one that owns it.  Which
    classes have a virtual pointer or a virtual base pointer is a matter of the classes and the virtual
    steps that can be reached, and a virtual base pointer that is not the class's own is that of a direct
    base. -/
theorem offsetTable_pointers (abi : Abi) (pointerSize : Word) (ops : List Operation) (id : ClassId)
    (t : BaseOffsetTable) (ht : ((reached abi pointerSize ops).offsetTable id).1 = .ok t) :
    let m := reached abi pointerSize ops
    let h := m.hierarchy
    (t.vptrOffset = none ∨ t.vptrOffset = some 0) ∧
      (t.vptrOffset.isSome = true →
        (∀ d, Relation.ReflTransGen m.PrimaryBase id d → ∃ td, (m.offsetTable d).1 = .ok td ∧
          td.vptrOffset = some 0 ∧ (td.ownsVptr = true ↔ td.primaryBase = none) ∧
          ∀ p, td.primaryBase = some p → ∃ s ∈ td.ownBases, s.base = p ∧ s.offset = 0) ∧
        ∃! d, Relation.ReflTransGen m.PrimaryBase id d ∧ m.OwnsVptr d) ∧
      (abi = .itanium →
        (t.vptrOffset.isSome = true ↔
          (∃ d, h.Reaches id d ∧ h.Polymorphic d) ∨ ∃ v, h.VirtualBase id v) ∧
        t.vbptrOffset = none ∧ t.ownsVbptr = false) ∧
      (abi = .msvc →
        (h.Unrecorded id →
          (t.vptrOffset.isSome = true ↔ ∃ d, h.ReachesNonVirtually id d ∧ h.Polymorphic d)) ∧
        (t.vbptrOffset.isSome = true ↔ ∃ v, h.VirtualBase id v) ∧
        ∀ o, t.vbptrOffset = some o → t.ownsVbptr = false → ∃ s ∈ t.ownBases, ∃ ts inner,
          (m.offsetTable s.base).1 = .ok ts ∧ ts.vbptrOffset = some inner ∧
            o.toNat = s.offset.toNat + inner.toNat) := by
  intro m h
  have hm : m.Coherent := coherent_reached abi pointerSize ops
  have hr : Resolves h id t := hm.resolves ht
  have habi : h.abi = abi := (parameters_reached abi pointerSize ops).1
  rw [hm.primaryBase_eq, hm.ownsVptr_eq]
  simp only [hm.offsetTable_iff]
  refine ⟨?_, fun hdynamic => ⟨fun d hd => ?_, hr.existsUnique_owner hdynamic⟩, ?_, ?_⟩
  · cases ho : t.vptrOffset with
    | none => exact .inl rfl
    | some o => exact .inr (congrArg some (hr.vptr_le ho).1)
  · obtain ⟨td, htd, hdynamic⟩ := hr.isDynamic_of_primary hdynamic hd
    refine ⟨td, htd, ?_⟩
    cases htd.beginsWith with
    | nothing hnone =>
      rw [BaseOffsetTable.isDynamic, hnone] at hdynamic
      cases hdynamic
    | ownVptr hzero howns hnone => exact ⟨hzero, by simp [howns, hnone], by simp [hnone]⟩
    | primary hzero hnot hsome hs hoffset =>
      refine ⟨hzero, by simp [hnot, hsome], fun p hp => ⟨_, hs, ?_, hoffset⟩⟩
      exact Option.some.inj (hsome.symm.trans hp)
  · rintro rfl
    have hnone : t.vbptrOffset = none := by
      rw [← Option.not_isSome_iff_eq_none, hr.isSome_vbptrOffset_iff, habi]
      simp [Abi.usesVirtualBasePointer]
    refine ⟨hr.isDynamic_iff_itanium habi, hnone, ?_⟩
    by_contra howns
    have hsome := hr.isSome_of_owns.2 ((Bool.not_eq_false _).mp howns)
    rw [hnone] at hsome
    cases hsome
  · rintro rfl
    refine ⟨hr.isDynamic_iff_msvc habi, ?_, fun o ho howns => hr.exists_vbptr ho howns⟩
    rw [hr.isSome_vbptrOffset_iff, habi]
    exact and_iff_right rfl

/-- The virtual base pointer of `3` is that of its second base, and the virtual pointer that of its third. -/
theorem offsetTable_pointers_inherited :
    let vtable : Vtable := .ofTargets 4096 1 8 [8192]
    let m := reached .msvc 8
      [.insert { id := 1, name := "Root", memberSize := 4, memberAlign := 4 },
        .insert { id := 2, name := "Sharing", bases := [⟨1, true, true, none⟩] },
        .insert { id := 4, name := "Plain", memberSize := 2, memberAlign := 2 },
        .insert { id := 5, name := "Shape", vtable },
        .insert { id := 3, name := "Widget",
                  bases := [⟨4, false, true, none⟩, ⟨2, false, true, none⟩, ⟨5, false, true, none⟩] }]
    ∃ t, (m.offsetTable 3).1 = .ok t ∧ t.primaryBase = some 5 ∧ m.hierarchy.Unrecorded 3 ∧
      (∃ d, m.hierarchy.ReachesNonVirtually 3 d ∧ m.hierarchy.Polymorphic d) ∧
      (∃! d, Relation.ReflTransGen m.PrimaryBase 3 d ∧ m.OwnsVptr d) ∧
      ∃ s ∈ t.ownBases, ∃ ts inner, (m.offsetTable s.base).1 = .ok ts ∧ ts.vbptrOffset = some inner ∧
        16 = s.offset.toNat + inner.toNat := by
  intro vtable m
  have hu : m.hierarchy.Unrecorded 3 := unrecorded_of_forall (by decide +kernel)
  cases ht : (m.offsetTable 3).1 with
  | error e =>
    have hok : (m.offsetTable 3).1.isOk = true := by decide +kernel
    rw [ht] at hok
    cases hok
  | ok t =>
    have hpointers : (m.offsetTable 3).1.toOption.map (fun t =>
        (t.primaryBase, t.vptrOffset, t.vbptrOffset, t.ownsVbptr)) = some (some 5, some 0, some 16, false) := by
      decide +kernel
    rw [ht] at hpointers
    simp only [Except.toOption, Option.map_some, Option.some.injEq, Prod.mk.injEq] at hpointers
    obtain ⟨hprimary, hvptr, hvbptr, howns⟩ := hpointers
    have hdynamic : t.vptrOffset.isSome = true := by rw [hvptr]; rfl
    obtain ⟨-, howner, -, hmsvc⟩ := offsetTable_pointers .msvc 8 _ 3 t ht
    obtain ⟨hiff, -, hinherited⟩ := hmsvc rfl
    exact ⟨t, rfl, hprimary, hu, (hiff hu).mp hdynamic, (howner hdynamic).2, hinherited 16 hvbptr howns⟩

end ClassModel

end ClassRecovery
