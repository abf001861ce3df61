/-
  Which layouts are registered.

  What the layouts of a class are is decided by the classes and their type names: `Composes` says that composing
  them from nothing gives certain layouts, and `LaysOut` that the bases that are embedded have
  layouts, too.  As long as no type name is another one with the mark of non-virtual parts,

  * every registered layout is one of those (`Registered`);
  * building a class succeeds if and only if the class can be laid out, and registers its layouts
    (`buildWithin_spec`);
  * once all classes were built, the registered layouts are determined (`Registered.eq_of_complete`).
-/
import ClassRecovery.Proofs.Layout.Composition
import ClassRecovery.Proofs.Model.Coherence

namespace ClassRecovery

namespace ClassModel

/-! ## The layouts of a class -/

section
variable (h : Hierarchy) (names : OrderedMap ClassId String)

/-- `b` is how the sub-object `s` is embedded. -/
def Embeds (s : BaseSubobject) (b : EmbeddedBase) : Prop :=
  ∃ typeName table, names.get? s.base = some typeName ∧ Resolves h s.base table ∧
    b = ⟨typeName, if table.hasVirtualBases then nonVirtualName typeName else typeName, s.offset,
      table.nvSize⟩

/-- Composing the layouts of the class `id`, where none is registered, gives `comp`. -/
inductive Composes (id : ClassId) (typeName : String) : Composition → Prop
  | mk {c : ClassType} {table : BaseOffsetTable} {direct shared : List EmbeddedBase}
      {comp : Composition} :
      h.classes.get? id = some c → names.get? id = some typeName → Resolves h id table →
      List.Forall₂ (Embeds h names) (table.direct.filter (!·.isVirtual)) direct →
      List.Forall₂ (Embeds h names) table.virtualBases shared →
      (new h.abi h.pointerSize).compose c typeName table direct shared = .ok comp →
      Composes id typeName comp

/-- The class can be laid out: so can the bases that are embedded, and composing succeeds. -/
inductive LaysOut : ClassId → Prop
  | mk {id : ClassId} {typeName : String} {table : BaseOffsetTable} {comp : Composition} :
      Resolves h id table → (∀ s ∈ table.direct.filter (!·.isVirtual), LaysOut s.base) →
      (∀ s ∈ table.virtualBases, LaysOut s.base) → Composes h names id typeName comp → LaysOut id

/-- `l` is the layout with a certain name, of a class that can be laid out. -/
def Lays (name : String) (l : Layout) : Prop :=
  ∃ id typeName comp, LaysOut h names id ∧ Composes h names id typeName comp ∧
    ((name = typeName ∧ l = comp.full) ∨
      (name = nonVirtualName typeName ∧ comp.nonVirtual = some l))

/-- No two classes have the same type name, and no type name is another one with the mark of
    non-virtual parts. -/
structure Distinct : Prop where
  injective : ∀ id id' name, names.get? id = some name → names.get? id' = some name → id = id'
  unmarked : ∀ id id' name, names.get? id = some name → names.get? id' ≠ some (nonVirtualName name)

end

theorem unmarked_of_forall {names : OrderedMap ClassId String}
    (hall : ∀ e ∈ names.entries, ∀ e' ∈ names.entries, e'.2 ≠ nonVirtualName e.2) :
    ∀ id id' name, names.get? id = some name → names.get? id' ≠ some (nonVirtualName name) :=
  fun _ _ _ hid hid' => hall _ (OrderedMap.get?_eq_some_iff.mp hid) _
    (OrderedMap.get?_eq_some_iff.mp hid') rfl

theorem nonVirtualName_ne (name : String) : nonVirtualName name ≠ name := by
  intro heq
  have hlength := congrArg String.length heq
  simp [nonVirtualName] at hlength

theorem nonVirtualName_injective {name name' : String}
    (heq : nonVirtualName name = nonVirtualName name') : name = name' := by
  have hlist := congrArg String.toList heq
  simp only [nonVirtualName, String.toList_append, List.append_left_inj] at hlist
  exact String.ext hlist

section
variable {h : Hierarchy} {names : OrderedMap ClassId String}

theorem Embeds.unique {s : BaseSubobject} {b b' : EmbeddedBase} (hb : Embeds h names s b)
    (hb' : Embeds h names s b') : b = b' := by
  obtain ⟨typeName, table, hname, htable, rfl⟩ := hb
  obtain ⟨typeName', table', hname', htable', rfl⟩ := hb'
  obtain rfl := Option.some.inj (hname.symm.trans hname')
  obtain rfl := htable.unique htable'
  rfl

theorem embeds_unique {l : List BaseSubobject} {bases bases' : List EmbeddedBase}
    (hbases : List.Forall₂ (Embeds h names) l bases)
    (hbases' : List.Forall₂ (Embeds h names) l bases') : bases = bases' := by
  induction hbases generalizing bases' with
  | nil =>
    cases hbases'
    rfl
  | cons hb _ ih =>
    cases hbases' with
    | cons hb' hrest' => rw [hb.unique hb', ih hrest']

/-- **A class has one composition at most.** -/
theorem Composes.unique {id : ClassId} {typeName typeName' : String} {comp comp' : Composition}
    (hcomp : Composes h names id typeName comp) (hcomp' : Composes h names id typeName' comp') :
    typeName = typeName' ∧ comp = comp' := by
  obtain ⟨hc, hname, htable, hdirect, hshared, hcomposed⟩ := hcomp
  obtain ⟨hc', hname', htable', hdirect', hshared', hcomposed'⟩ := hcomp'
  obtain rfl := Option.some.inj (hname.symm.trans hname')
  obtain rfl := Option.some.inj (hc.symm.trans hc')
  obtain rfl := htable.unique htable'
  obtain rfl := embeds_unique hdirect hdirect'
  obtain rfl := embeds_unique hshared hshared'
  exact ⟨rfl, Except.ok.inj (hcomposed.symm.trans hcomposed')⟩

theorem LaysOut.composes {id : ClassId} (hl : LaysOut h names id) :
    ∃ typeName comp, Composes h names id typeName comp := by
  obtain ⟨-, -, -, hcomp⟩ := hl
  exact ⟨_, _, hcomp⟩

theorem LaysOut.mem_keys {id : ClassId} (hl : LaysOut h names id) : id ∈ h.classes.keys := by
  obtain ⟨-, -, -, hc, -⟩ := hl
  rw [OrderedMap.mem_keys_iff, hc]
  rfl

theorem Composes.typeName {id : ClassId} {typeName : String} {comp : Composition}
    (hcomp : Composes h names id typeName comp) : names.get? id = some typeName := by
  obtain ⟨-, hname, -⟩ := hcomp
  exact hname

end

/-! ## Starting from registered layouts -/

section
variable {c : ClassType} {table : BaseOffsetTable} {abi : Abi} {pointerSize : Word}

theorem startLayout_of_none {m : ClassModel} {name : String} (hnone : m.types.get? name = none)
    (size align : Word) :
    m.startLayout name size align = (new abi pointerSize).startLayout name size align := by
  have hnew : (new abi pointerSize).types.get? name = none := rfl
  rw [startLayout, startLayout, hnone, hnew]

theorem wellFormed_startLayout {m : ClassModel} {name : String}
    (hwf : ∀ l, m.types.get? name = some l → l.WellFormed) (size align : Word) :
    (m.startLayout name size align).WellFormed := by
  unfold startLayout
  cases hl : m.types.get? name with
  | none =>
    have hempty := Layout.wellFormed_empty name size align
    exact ⟨hempty.fits, hempty.apart⟩
  | some l => exact ⟨(hwf l hl).fits, (hwf l hl).apart⟩

/-- A class is composed alike once more on top of its own layout. -/
theorem compose_startLayout_again {m m' : ClassModel} {name : String} {bases : List EmbeddedBase}
    {size align bound : Word} {away : List Field} {l : Layout}
    (hwf : (m.startLayout name size align).WellFormed)
    (hcomp : c.compose abi pointerSize table bases bound (m.startLayout name size align) =
      .ok (away, l)) (hl : m'.types.get? name = some l) :
    c.compose abi pointerSize table bases bound (m'.startLayout name size align) =
      .ok (away, l) := by
  have halign : max l.alignment align = l.alignment := by
    rw [(ClassType.compose_keeps hcomp).2]
    apply UInt64.toNat_inj.mp
    simp only [startLayout, toNat_max]
    omega
  have hsame : m'.startLayout name size align = l := by
    rw [startLayout, hl, Option.getD_some, halign]
  rw [hsame]
  exact ClassType.compose_again hwf hcomp

/-- A class is composed alike on top of nothing and on top of its own layout. -/
theorem compose_startLayout {m : ClassModel} {name : String} {bases : List EmbeddedBase}
    {size align bound : Word} {away : List Field} {l : Layout}
    (hfresh : c.compose abi pointerSize table bases bound
      ((new abi pointerSize).startLayout name size align) = .ok (away, l))
    (hstart : m.types.get? name = none ∨ m.types.get? name = some l) :
    c.compose abi pointerSize table bases bound (m.startLayout name size align) =
      .ok (away, l) := by
  rcases hstart with hnone | hsome
  · rw [startLayout_of_none hnone, hfresh]
  · have hnew : (new abi pointerSize).types.get? name = none := rfl
    have hwf := wellFormed_startLayout (fun l hl => nomatch hnew.symm.trans hl) size align
    exact compose_startLayout_again hwf hfresh hsome

/-- What composing the layouts of a class comes to. -/
theorem compose_ok_iff {m : ClassModel} {typeName : String} {direct shared : List EmbeddedBase}
    {comp : Composition} :
    m.compose c typeName table direct shared = .ok comp ↔
      ∃ away, c.compose m.abi m.pointerSize table (direct ++ shared) table.size
          (m.startLayout typeName table.size table.align) = .ok (away, comp.full) ∧
        ((table.hasVirtualBases = false ∧ comp.nonVirtual = none ∧ comp.away = away) ∨
          ∃ more nv, table.hasVirtualBases = true ∧ comp.nonVirtual = some nv ∧
            comp.away = more ++ away ∧
            c.compose m.abi m.pointerSize table direct table.nvSize
              (m.startLayout (nonVirtualName typeName) table.nvSize table.nvAlign) =
                .ok (more, nv)) := by
  obtain ⟨away, nonVirtual, full⟩ := comp
  unfold ClassModel.compose
  cases table.hasVirtualBases with
  | false =>
    simp only [Bool.false_eq_true, if_false, bind_eq_ok_iff, Prod.exists]
    constructor
    · rintro ⟨away', l, hfull, hr⟩
      cases hr
      exact ⟨away, hfull, .inl ⟨trivial, rfl, rfl⟩⟩
    · rintro ⟨away', hfull, ⟨-, rfl, rfl⟩ | ⟨_, _, hvirtual, -⟩⟩
      · exact ⟨_, _, hfull, rfl⟩
      · exact hvirtual.elim
  | true =>
    simp only [if_true, bind_eq_ok_iff, Prod.exists]
    constructor
    · rintro ⟨more, nv, hnv, away', l, hfull, hr⟩
      cases hr
      exact ⟨away', hfull, .inr ⟨more, nv, trivial, rfl, rfl, hnv⟩⟩
    · rintro ⟨away', hfull, ⟨hvirtual, -⟩ | ⟨more, nv, -, rfl, rfl, hnv⟩⟩
      · cases hvirtual
      · exact ⟨more, nv, hnv, away', full, hfull, rfl⟩

theorem compose_of_none {m : ClassModel} {typeName : String} {direct shared : List EmbeddedBase}
    (hfull : m.types.get? typeName = none)
    (hnonVirtual : m.types.get? (nonVirtualName typeName) = none) :
    m.compose c typeName table direct shared =
      (new m.abi m.pointerSize).compose c typeName table direct shared := by
  unfold ClassModel.compose
  rw [@startLayout_of_none m.abi m.pointerSize m typeName hfull,
    @startLayout_of_none m.abi m.pointerSize m (nonVirtualName typeName) hnonVirtual]
  rfl

theorem compose_of_registered {m : ClassModel} {typeName : String}
    {direct shared : List EmbeddedBase} {comp : Composition}
    (hfresh : (new m.abi m.pointerSize).compose c typeName table direct shared = .ok comp)
    (hfull : m.types.get? typeName = none ∨ m.types.get? typeName = some comp.full)
    (hnonVirtual : m.types.get? (nonVirtualName typeName) = none ∨
      m.types.get? (nonVirtualName typeName) = comp.nonVirtual) :
    m.compose c typeName table direct shared = .ok comp := by
  obtain ⟨away, hcomposed, hrest⟩ := compose_ok_iff.mp hfresh
  refine compose_ok_iff.mpr ⟨away, compose_startLayout hcomposed hfull, ?_⟩
  rcases hrest with hplain | ⟨more, nv, hvirtual, hnv, haway, hcomposed'⟩
  · exact .inl hplain
  · exact .inr ⟨more, nv, hvirtual, hnv, haway,
      compose_startLayout hcomposed' (hnv ▸ hnonVirtual)⟩

theorem names_of_compose {typeName : String} {direct shared : List EmbeddedBase}
    {comp : Composition}
    (hfresh : (new abi pointerSize).compose c typeName table direct shared = .ok comp) :
    comp.full.name = typeName ∧
      ∀ nv, comp.nonVirtual = some nv → nv.name = nonVirtualName typeName := by
  obtain ⟨away, hcomposed, hrest⟩ := compose_ok_iff.mp hfresh
  refine ⟨(ClassType.compose_keeps hcomposed).1, fun nv hnv => ?_⟩
  rcases hrest with ⟨-, hnone, -⟩ | ⟨more, nv', -, hnv', -, hcomposed'⟩
  · rw [hnone] at hnv
    cases hnv
  · obtain rfl := Option.some.inj (hnv.symm.trans hnv')
    exact (ClassType.compose_keeps hcomposed').1

end

/-! ## The registered layouts -/

/-- Every registered layout is that of a class that can be laid out, and with the layout of a class that of
    its non-virtual part is registered. -/
structure Registered (h : Hierarchy) (names : OrderedMap ClassId String) (types : TypeDatabase) :
    Prop where
  lays : ∀ name l, types.get? name = some l → Lays h names name l
  paired : ∀ id typeName comp, Composes h names id typeName comp → types.contains typeName = true →
    ∀ nv, comp.nonVirtual = some nv → types.get? (nonVirtualName typeName) = some nv

/-- Only layouts of the class itself are registered under its names, and only if it can be laid out. -/
def GenuineAt (h : Hierarchy) (names : OrderedMap ClassId String) (types : TypeDatabase) (id : ClassId) : Prop :=
  ∀ typeName l, names.get? id = some typeName →
    (types.get? typeName = some l →
      LaysOut h names id ∧ ∃ comp, Composes h names id typeName comp ∧ l = comp.full) ∧
    (types.get? (nonVirtualName typeName) = some l →
      LaysOut h names id ∧ ∃ comp, Composes h names id typeName comp ∧ comp.nonVirtual = some l)

section
variable {h : Hierarchy} {names : OrderedMap ClassId String} (hnames : Distinct names)
variable {types : TypeDatabase} (hreg : Registered h names types)
include hnames hreg

/-- What is registered under the type name of a class. -/
theorem Registered.full {id : ClassId} {typeName : String} {l : Layout}
    (hname : names.get? id = some typeName) (hl : types.get? typeName = some l) :
    LaysOut h names id ∧ ∃ comp, Composes h names id typeName comp ∧ l = comp.full := by
  obtain ⟨id', typeName', comp, hlays, hcomp, ⟨rfl, rfl⟩ | ⟨rfl, -⟩⟩ := hreg.lays _ _ hl
  · obtain rfl := hnames.injective _ _ _ hname hcomp.typeName
    exact ⟨hlays, comp, hcomp, rfl⟩
  · exact absurd hname (hnames.unmarked _ _ _ hcomp.typeName)

/-- What is registered under the marked type name of a class. -/
theorem Registered.nonVirtual {id : ClassId} {typeName : String} {l : Layout}
    (hname : names.get? id = some typeName)
    (hl : types.get? (nonVirtualName typeName) = some l) :
    LaysOut h names id ∧
      ∃ comp, Composes h names id typeName comp ∧ comp.nonVirtual = some l := by
  obtain ⟨id', typeName', comp, hlays, hcomp, ⟨rfl, -⟩ | ⟨hmarked, hnv⟩⟩ := hreg.lays _ _ hl
  · exact absurd hcomp.typeName (hnames.unmarked _ _ _ hname)
  · obtain rfl := nonVirtualName_injective hmarked
    obtain rfl := hnames.injective _ _ _ hname hcomp.typeName
    exact ⟨hlays, comp, hcomp, hnv⟩

theorem Registered.genuineAt (id : ClassId) : GenuineAt h names types id := fun _ _ hname =>
  ⟨hreg.full hnames hname, hreg.nonVirtual hnames hname⟩

/-- Once every class that can be laid out is, a layout is registered if and only if it is that
    of such a class. -/
theorem Registered.get?_iff
    (hall : ∀ id typeName, LaysOut h names id → names.get? id = some typeName →
      types.contains typeName = true) {name : String} {l : Layout} :
    types.get? name = some l ↔ Lays h names name l := by
  refine ⟨hreg.lays name l, ?_⟩
  rintro ⟨id, typeName, comp, hlays, hcomp, ⟨rfl, rfl⟩ | ⟨rfl, hnv⟩⟩
  · obtain ⟨l, hl⟩ := Option.isSome_iff_exists.mp (hall id name hlays hcomp.typeName)
    obtain ⟨-, comp', hcomp', rfl⟩ := hreg.full hnames hcomp.typeName hl
    obtain ⟨-, rfl⟩ := hcomp.unique hcomp'
    exact hl
  · exact hreg.paired id typeName comp hcomp (hall id typeName hlays hcomp.typeName) l hnv

end

/-- **The registered layouts are determined** once every class that can be laid out is. -/
theorem Registered.eq_of_complete {h : Hierarchy} {names : OrderedMap ClassId String}
    (hnames : Distinct names) {types types' : TypeDatabase} (hreg : Registered h names types)
    (hreg' : Registered h names types')
    (hall : ∀ id typeName, LaysOut h names id → names.get? id = some typeName →
      types.contains typeName = true)
    (hall' : ∀ id typeName, LaysOut h names id → names.get? id = some typeName →
      types'.contains typeName = true) : types = types' := by
  have hget : ∀ name, types.get? name = types'.get? name := fun name =>
    Option.ext fun l =>
      (hreg.get?_iff hnames hall).trans (hreg'.get?_iff hnames hall').symm
  obtain ⟨layouts⟩ := types
  obtain ⟨layouts'⟩ := types'
  rw [show layouts = layouts' from OrderedMap.ext hget]

end ClassModel

end ClassRecovery
