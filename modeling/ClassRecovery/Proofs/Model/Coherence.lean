/-
  Models that hold together.

  A model is coherent if its classes are stored under their own identities and the offset tables it keeps are
  those of its classes.  Inserting a class, resolving and building keep a model coherent; resolving and
  building leave the classes and their attribution as they are (`ClassModel.Keeps`).
-/
import ClassRecovery.Model.Layouts
import ClassRecovery.Proofs.Offsets.Resolution

namespace ClassRecovery

namespace ClassModel

/-! ## Coherent models -/

/-- The class as it is stored: its table of virtual functions knows it. -/
def stored (c : ClassType) : ClassType :=
  { c with vtable := c.vtable.map ({ · with owner := some c.id }) }

/-- The classes are stored under their identities, and the tables are those of the classes. -/
structure Coherent (m : ClassModel) : Prop where
  keyed : m.hierarchy.Keyed
  owned : ∀ id c, m.get? id = some c → stored c = c
  tables : m.tables.Sound m.hierarchy

/-- The models have the same classes and the same attribution; what is derived from the
    classes may differ. -/
structure SameClasses (m m' : ClassModel) : Prop where
  hierarchy : m'.hierarchy = m.hierarchy
  typeNames : m'.typeNames = m.typeNames
  byTypeName : m'.byTypeName = m.byTypeName
  attributed : m'.attributed = m.attributed
  progress : m'.progress = m.progress

theorem SameClasses.refl (m : ClassModel) : SameClasses m m := ⟨rfl, rfl, rfl, rfl, rfl⟩

theorem SameClasses.trans {m₁ m₂ m₃ : ClassModel} (h : SameClasses m₁ m₂)
    (h' : SameClasses m₂ m₃) : SameClasses m₁ m₃ :=
  ⟨h'.hierarchy.trans h.hierarchy, h'.typeNames.trans h.typeNames,
    h'.byTypeName.trans h.byTypeName, h'.attributed.trans h.attributed,
    h'.progress.trans h.progress⟩

/-- The model without classes. -/
def new (abi : Abi) (pointerSize : Word) : ClassModel := { abi, pointerSize }

theorem coherent_new (abi : Abi) (pointerSize : Word) : (new abi pointerSize).Coherent :=
  ⟨by intro id c h; simp [new, hierarchy] at h, by intro id c h; simp [new, get?] at h,
    OffsetMemo.Sound.nil _⟩

/-- A model with the same classes is coherent if its tables are theirs. -/
theorem Coherent.of_hierarchy {m m' : ClassModel} (hm : m.Coherent)
    (h : m'.hierarchy = m.hierarchy) (htables : m'.tables.Sound m.hierarchy) : m'.Coherent := by
  have hclasses : m'.classes = m.classes := congrArg Hierarchy.classes h
  refine ⟨h ▸ hm.keyed, fun id c hc => hm.owned id c ?_, h ▸ htables⟩
  rwa [get?, hclasses] at hc

/-! ## Insertion -/

theorem get?_insert (m : ClassModel) (c : ClassType) (id : ClassId) :
    (m.insert c).get? id = if id = c.id then some (stored c) else m.get? id :=
  OrderedMap.get?_insert m.classes c.id id (stored c)

/-- A class that is not stored yet is not among those that a resolved class reaches. -/
theorem Coherent.agreeFrom_insert {m : ClassModel} (hm : m.Coherent) {c : ClassType}
    (hnew : m.get? c.id = none) {t : BaseOffsetTable} (ht : t ∈ m.tables) :
    m.hierarchy.AgreeFrom (m.insert c).hierarchy t.owner := by
  intro d hd
  obtain ⟨_, hc, -⟩ := (hm.tables.resolves t ht).of_reaches hd
  have hne : d ≠ c.id := by
    rintro rfl
    rw [get?] at hnew
    simp [hierarchy, hnew] at hc
  exact ((get?_insert m c d).trans (if_neg hne)).symm

theorem Coherent.insert {m : ClassModel} (hm : m.Coherent) (c : ClassType) :
    (m.insert c).Coherent where
  keyed id c' h := by
    have h' : (m.insert c).get? id = some c' := h
    rw [get?_insert] at h'
    split at h'
    · next hid => rw [hid, ← Option.some.inj h']; rfl
    · exact hm.keyed id c' h'
  owned id c' h := by
    rw [get?_insert] at h
    split at h
    · rw [← Option.some.inj h]
      simp [stored, Function.comp_def]
    · exact hm.owned id c' h
  tables := by
    by_cases hnew : m.contains c.id = true
    · have : (m.insert c).tables = [] := by simp [ClassModel.insert, hnew]
      exact this ▸ .nil _
    · have htables : (m.insert c).tables = m.tables := by simp [ClassModel.insert, hnew]
      have hnone : m.get? c.id = none := by
        simpa [contains, OrderedMap.contains, get?] using hnew
      exact htables ▸ hm.tables.congr rfl rfl fun t ht => hm.agreeFrom_insert hnone ht

/-! ## Resolving and building -/

theorem sameClasses_offsetTable (m : ClassModel) (id : ClassId) :
    SameClasses m (m.offsetTable id).2 := ⟨rfl, rfl, rfl, rfl, rfl⟩

theorem sameClasses_registerLayout (m : ClassModel) (l : Layout) :
    SameClasses m (m.registerLayout l) := ⟨rfl, rfl, rfl, rfl, rfl⟩

/-- A table is resolved from the classes alone. -/
theorem Coherent.offsetTable_answers {m : ClassModel} (hm : m.Coherent) (id : ClassId) :
    ResolvedWith m.hierarchy [] id m.tables (m.hierarchy.resolve id m.tables) :=
  Hierarchy.resolve_answers hm.keyed hm.tables

theorem Coherent.resolves {m : ClassModel} (hm : m.Coherent) {id : ClassId} {t : BaseOffsetTable}
    (ht : (m.offsetTable id).1 = .ok t) : Resolves m.hierarchy id t := by
  have hanswer := (hm.offsetTable_answers id).answers
  rwa [show (m.hierarchy.resolve id m.tables).1 = .ok t from ht] at hanswer

theorem Coherent.offsetTable_eq {m : ClassModel} (hm : m.Coherent) {id : ClassId}
    {t : BaseOffsetTable} (hr : Resolves m.hierarchy id t) : (m.offsetTable id).1 = .ok t := by
  have hanswer : Answers m.hierarchy [] id (.ok t) := hr
  exact (hm.offsetTable_answers id).answers.unique hanswer

theorem Coherent.offsetTable {m : ClassModel} (hm : m.Coherent) (id : ClassId) :
    (m.offsetTable id).2.Coherent :=
  hm.of_hierarchy rfl (hm.offsetTable_answers id).sound

theorem Coherent.registerLayout {m : ClassModel} (hm : m.Coherent) (l : Layout) :
    (m.registerLayout l).Coherent :=
  hm.of_hierarchy rfl hm.tables

/-- The classes stay as they are, and so does coherence. -/
def Keeps (m m' : ClassModel) : Prop := SameClasses m m' ∧ (m.Coherent → m'.Coherent)

theorem Keeps.refl (m : ClassModel) : Keeps m m := ⟨.refl m, id⟩

theorem Keeps.trans {m₁ m₂ m₃ : ClassModel} (h : Keeps m₁ m₂) (h' : Keeps m₂ m₃) :
    Keeps m₁ m₃ := ⟨h.1.trans h'.1, h'.2 ∘ h.2⟩

theorem keeps_offsetTable (m : ClassModel) (id : ClassId) : Keeps m (m.offsetTable id).2 :=
  ⟨sameClasses_offsetTable m id, fun hm => hm.offsetTable id⟩

/-! ## Building, without the journal -/

/-- One step after another: the second is taken if the first gives something. -/
def andThen {α β : Type} (x : Except ModelError α × ClassModel)
    (f : α → ClassModel → Except ModelError β × ClassModel) : Except ModelError β × ClassModel :=
  match x with
  | (.error e, m) => (.error e, m)
  | (.ok a, m) => f a m

section
variable (build : LayoutBuilder)

theorem value_embedBase (s : BaseSubobject) (m : ClassModel) :
    (embedBase build s m).value =
      andThen (ensureWith build s.base m).value fun _ m =>
        match m.typeName? s.base with
        | none => (.error (.unknownClass s.base), m)
        | some typeName =>
          andThen (m.offsetTable s.base) fun table m =>
            let layout := if table.hasVirtualBases then nonVirtualName typeName else typeName
            (.ok ⟨typeName, layout, s.offset, table.nvSize⟩, m) := by
  simp only [embedBase, Noted.value_bind, andThen]
  rcases (ensureWith build s.base m).value with ⟨e | l, m₁⟩
  · rfl
  · simp only
    cases m₁.typeName? s.base with
    | none => rfl
    | some typeName =>
      simp only [Noted.value_bind, noteOffsetTable]
      rcases m₁.offsetTable s.base with ⟨e | t, m₂⟩ <;> rfl

theorem value_embedBases_cons (s : BaseSubobject) (rest : List BaseSubobject) (m : ClassModel) :
    (embedBases build (s :: rest) m).value =
      andThen (embedBase build s m).value fun b m =>
        ((embedBases build rest m).value.1.map (b :: ·), (embedBases build rest m).value.2) := by
  simp only [embedBases, Noted.value_bind, andThen]
  rcases (embedBase build s m).value with ⟨e | b, m₁⟩ <;> rfl

theorem value_registerComposition (m : ClassModel) (id : ClassId) (c : Composition) :
    (m.registerComposition id c).value =
      (c.nonVirtual.elim m m.registerLayout).registerLayout c.full := by
  obtain ⟨away, nonVirtual, full⟩ := c
  cases nonVirtual <;> rfl

theorem value_buildWithin_succ (fuel : Nat) (id : ClassId) (m : ClassModel) :
    (buildWithin (fuel + 1) id m).value =
      andThen (m.offsetTable id) fun table m =>
        match m.get? id, m.typeName? id with
        | some c, some typeName =>
          andThen (embedBases (buildWithin fuel) (table.direct.filter (!·.isVirtual)) m).value
            fun direct m =>
              andThen (embedBases (buildWithin fuel) table.virtualBases m).value fun shared m =>
                match m.compose c typeName table direct shared with
                | .error e => (.error (.layout id e), m)
                | .ok composition =>
                  (.ok composition.full, (m.registerComposition id composition).value)
        | _, _ => (.error (.unknownClass id), m) := by
  simp only [buildWithin, Noted.value_bind, noteOffsetTable, andThen]
  rcases m.offsetTable id with ⟨e | table, m₁⟩
  · rfl
  · cases hc : m₁.get? id with
    | none => simp only [hc]; rfl
    | some c =>
      cases hname : m₁.typeName? id with
      | none => simp only [hc, hname]; rfl
      | some typeName =>
        simp only [hc, hname, Noted.value_bind]
        rcases (embedBases (buildWithin fuel) (table.direct.filter (!·.isVirtual)) m₁).value with
          ⟨e | direct, m₂⟩
        · rfl
        · simp only [Noted.value_bind]
          rcases (embedBases (buildWithin fuel) table.virtualBases m₂).value with
            ⟨e | shared, m₃⟩
          · rfl
          · cases hcomp : m₃.compose c typeName table direct shared <;> simp only [hcomp] <;> rfl

end

/-! ## Building keeps the classes -/

theorem Keeps.andThen {α β : Type} {m : ClassModel} {x : Except ModelError α × ClassModel}
    {f : α → ClassModel → Except ModelError β × ClassModel} (hx : Keeps m x.2)
    (hf : ∀ a m', Keeps m' (f a m').2) : Keeps m (ClassModel.andThen x f).2 := by
  rcases x with ⟨e | a, m'⟩
  · exact hx
  · exact hx.trans (hf a m')

theorem keeps_registerLayout (m : ClassModel) (l : Layout) : Keeps m (m.registerLayout l) :=
  ⟨sameClasses_registerLayout m l, fun hm => hm.registerLayout l⟩

theorem keeps_registerComposition (m : ClassModel) (id : ClassId) (c : Composition) :
    Keeps m (m.registerComposition id c).value := by
  rw [value_registerComposition]
  refine .trans ?_ (keeps_registerLayout _ _)
  cases c.nonVirtual with
  | none => exact .refl m
  | some nv => exact keeps_registerLayout m nv

section
variable {build : LayoutBuilder} (hbuild : ∀ id m, Keeps m (build id m).value.2)
include hbuild

theorem keeps_ensureWith (id : ClassId) (m : ClassModel) :
    Keeps m (ensureWith build id m).value.2 := by
  unfold ensureWith
  split
  · exact .refl m
  · exact hbuild id m

theorem keeps_embedBase (s : BaseSubobject) (m : ClassModel) :
    Keeps m (embedBase build s m).value.2 := by
  rw [value_embedBase]
  refine (keeps_ensureWith hbuild s.base m).andThen fun _ m₁ => ?_
  cases m₁.typeName? s.base with
  | none => exact .refl m₁
  | some typeName => exact (keeps_offsetTable m₁ s.base).andThen fun _ m₂ => .refl m₂

theorem keeps_embedBases :
    ∀ (l : List BaseSubobject) (m : ClassModel), Keeps m (embedBases build l m).value.2
  | [], m => .refl m
  | s :: rest, m => by
    rw [value_embedBases_cons]
    exact (keeps_embedBase hbuild s m).andThen fun _ m₁ => keeps_embedBases rest m₁

end

theorem keeps_buildWithin (fuel : Nat) (id : ClassId) (m : ClassModel) :
    Keeps m (buildWithin fuel id m).value.2 := by
  induction fuel generalizing id m with
  | zero => exact .refl m
  | succ fuel ih =>
    rw [value_buildWithin_succ]
    refine (keeps_offsetTable m id).andThen fun table m₁ => ?_
    split
    · refine (keeps_embedBases ih _ m₁).andThen fun direct m₂ => ?_
      refine (keeps_embedBases ih _ m₂).andThen fun shared m₃ => ?_
      split
      · exact .refl m₃
      · exact keeps_registerComposition ..
    · exact .refl m₁

end ClassModel

end ClassRecovery
