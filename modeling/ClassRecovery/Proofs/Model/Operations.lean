/-
  Models under any sequence of operations.

  A model keeps the offset tables that are resolved.  The kept tables never show: whatever was done to
  a model before, the table of a class, or the error in place of it, is that of a new model with the same
  classes, and only the classes that can be reached from the class count
  (`ClassModel.offsetTable_forgets`).
-/
import ClassRecovery.Proofs.Model.Coherence

namespace ClassRecovery

namespace ClassModel

/-! ## Operations -/

/-- What can be done to a model. -/
inductive Operation where
  /-- Inserts a class, or replaces the class of the same identity. -/
  | insert (c : ClassType)
  | offsetTable (id : ClassId)
  | buildLayout (id : ClassId)
  | ensureLayout (id : ClassId)
  | registerLayout (l : Layout)
  | setState (id : ClassId) (state : AttributionState)
  | setInterrupted (id : ClassId) (interrupted : Bool)
  | markAnalyzed (id : ClassId) (function : Address)
  | record (f : AttributedFunction)

/-- The model after an operation, whether it succeeds or fails. -/
def apply (m : ClassModel) : Operation → ClassModel
  | .insert c => m.insert c
  | .offsetTable id => (m.offsetTable id).2
  | .buildLayout id => (m.buildLayout id).value.2
  | .ensureLayout id => (m.ensureLayout id).value.2
  | .registerLayout l => m.registerLayout l
  | .setState id state => m.setState id state
  | .setInterrupted id interrupted => m.setInterrupted id interrupted
  | .markAnalyzed id function => m.markAnalyzed id function
  | .record f => m.record f

/-- The model after several operations. -/
def applyAll (m : ClassModel) (ops : List Operation) : ClassModel := ops.foldl apply m

/-- A new model with the given classes. -/
def ofClasses (abi : Abi) (pointerSize : Word) (classes : List ClassType) : ClassModel :=
  (new abi pointerSize).applyAll (classes.map .insert)

/-! ## Any sequence of operations -/

/-- **Every operation keeps a model coherent.** -/
theorem Coherent.apply {m : ClassModel} (hm : m.Coherent) (op : Operation) :
    (m.apply op).Coherent := by
  cases op with
  | insert c => exact hm.insert c
  | offsetTable id => exact hm.offsetTable id
  | buildLayout id => exact (keeps_buildWithin _ id m).2 hm
  | ensureLayout id => exact (keeps_ensureWith (keeps_buildWithin _) id m).2 hm
  | registerLayout l => exact hm.registerLayout l
  | setState | setInterrupted | markAnalyzed | record => exact hm.of_hierarchy rfl hm.tables

theorem Coherent.applyAll {m : ClassModel} (hm : m.Coherent) (ops : List Operation) :
    (m.applyAll ops).Coherent := by
  induction ops generalizing m with
  | nil => exact hm
  | cons op ops ih => exact ih (hm.apply op)

/-- The model after any operations on a new one. -/
def reached (abi : Abi) (pointerSize : Word) (ops : List Operation) : ClassModel :=
  (new abi pointerSize).applyAll ops

theorem coherent_reached (abi : Abi) (pointerSize : Word) (ops : List Operation) :
    (reached abi pointerSize ops).Coherent :=
  (coherent_new abi pointerSize).applyAll ops

/-- **An operation inserts a class, or leaves the classes and their names as they are.** -/
theorem apply_cases (m : ClassModel) (op : Operation) :
    (∃ c, op = .insert c) ∨ (m.apply op).hierarchy = m.hierarchy ∧
      (m.apply op).typeNames = m.typeNames ∧ (m.apply op).byTypeName = m.byTypeName := by
  have of_keeps {m' : ClassModel} (h : Keeps m m') : m'.hierarchy = m.hierarchy ∧
      m'.typeNames = m.typeNames ∧ m'.byTypeName = m.byTypeName :=
    ⟨h.1.hierarchy, h.1.typeNames, h.1.byTypeName⟩
  cases op with
  | insert c => exact .inl ⟨c, rfl⟩
  | buildLayout id => exact .inr (of_keeps (keeps_buildWithin _ id m))
  | ensureLayout id => exact .inr (of_keeps (keeps_ensureWith (keeps_buildWithin _) id m))
  | offsetTable | registerLayout | setState | setInterrupted | markAnalyzed | record =>
    exact .inr ⟨rfl, rfl, rfl⟩

/-- What is so in a new model, stays so when a class is inserted, and depends on the classes and their
    names only, is so in every model. -/
theorem reached_induction {P : ClassModel → Prop} {abi : Abi} {pointerSize : Word}
    (hnew : P (new abi pointerSize)) (hinsert : ∀ m c, P m → P (m.insert c))
    (hsame : ∀ m m' : ClassModel, m'.hierarchy = m.hierarchy → m'.typeNames = m.typeNames →
      m'.byTypeName = m.byTypeName → P m → P m') (ops : List Operation) :
    P (reached abi pointerSize ops) := by
  suffices ∀ m, P m → P (m.applyAll ops) from this _ hnew
  induction ops with
  | nil => exact fun m hm => hm
  | cons op ops ih =>
    intro m hm
    refine ih (m.apply op) ?_
    rcases m.apply_cases op with ⟨c, rfl⟩ | ⟨hhierarchy, htypeNames, hbyTypeName⟩
    · exact hinsert m c hm
    · exact hsame m _ hhierarchy htypeNames hbyTypeName hm

theorem parameters_reached (abi : Abi) (pointerSize : Word) (ops : List Operation) :
    (reached abi pointerSize ops).abi = abi ∧
      (reached abi pointerSize ops).pointerSize = pointerSize := by
  refine reached_induction (P := fun m => m.abi = abi ∧ m.pointerSize = pointerSize) ⟨rfl, rfl⟩
    (fun m c hm => hm) (fun m m' hhierarchy _ _ hm => ?_) ops
  exact ⟨(congrArg Hierarchy.abi hhierarchy).trans hm.1,
    (congrArg Hierarchy.pointerSize hhierarchy).trans hm.2⟩

@[simp]
theorem get?_offsetTable (m : ClassModel) (id d : ClassId) :
    (m.offsetTable id).2.get? d = m.get? d := rfl

/-! ## A new model with the same classes -/

theorem get?_insertions_of_notMem (m : ClassModel) {classes : List ClassType} {id : ClassId}
    (hid : id ∉ classes.map (·.id)) :
    (m.applyAll (classes.map .insert)).get? id = m.get? id := by
  induction classes generalizing m with
  | nil => rfl
  | cons c classes ih =>
    simp only [List.map_cons, List.mem_cons, not_or] at hid
    exact (ih (m.insert c) hid.2).trans ((get?_insert m c id).trans (if_neg hid.1))

theorem get?_insertions_of_mem (m : ClassModel) {classes : List ClassType}
    (hnodup : (classes.map (·.id)).Nodup) {c : ClassType} (hc : c ∈ classes) :
    (m.applyAll (classes.map .insert)).get? c.id = some (stored c) := by
  induction classes generalizing m with
  | nil => simp at hc
  | cons c' classes ih =>
    obtain ⟨hnot, hnodup⟩ := List.nodup_cons.mp hnodup
    rcases List.mem_cons.mp hc with rfl | hc
    · exact (get?_insertions_of_notMem (m.insert c) hnot).trans
        ((get?_insert m c c.id).trans (if_pos rfl))
    · exact ih (m.insert c') hnodup hc

/-- A coherent model has the same classes as the new model with its classes. -/
theorem Coherent.classes_ofClasses {m : ClassModel} (hm : m.Coherent) (abi : Abi)
    (pointerSize : Word) : (ofClasses abi pointerSize m.classes.values).classes = m.classes := by
  have hids : m.classes.values.map (·.id) = m.classes.keys := by
    simp only [OrderedMap.values, OrderedMap.keys, List.map_map]
    exact List.map_congr_left fun e he => hm.keyed e.1 e.2 (OrderedMap.get?_eq_some_iff.mpr he)
  refine OrderedMap.ext fun id => ?_
  cases h : m.classes.get? id with
  | none =>
    have hnot : id ∉ m.classes.values.map (·.id) := by
      rw [hids, OrderedMap.mem_keys_iff, h]
      exact Bool.false_ne_true
    exact get?_insertions_of_notMem (new abi pointerSize) hnot
  | some c =>
    have hmem : c ∈ m.classes.values :=
      List.mem_map.mpr ⟨(id, c), OrderedMap.get?_eq_some_iff.mp h, rfl⟩
    obtain rfl : c.id = id := hm.keyed id c h
    have hfresh := get?_insertions_of_mem (new abi pointerSize)
      (hids ▸ m.classes.nodup_keys) hmem
    rwa [hm.owned c.id c h] at hfresh

/-! ## The kept tables never show -/

/-- Coherent models with the same classes below a class answer alike for it. -/
theorem Coherent.offsetTable_congr {m m' : ClassModel} (hm : m.Coherent) (hm' : m'.Coherent)
    (habi : m.abi = m'.abi) (hptr : m.pointerSize = m'.pointerSize) {id : ClassId}
    (hagree : m.hierarchy.AgreeFrom m'.hierarchy id) :
    (m.offsetTable id).1 = (m'.offsetTable id).1 := by
  have hanswer : Answers m'.hierarchy [] id (m.offsetTable id).1 :=
    (hm.offsetTable_answers id).answers.congr habi hptr hagree
  exact hanswer.unique (hm'.offsetTable_answers id).answers

/-- **Whatever was done to a model, the offset table of a class, or the error in place of it, is that of
    a new model with the same classes; and models with the same classes below a class answer alike for
    it.** -/
theorem offsetTable_forgets (abi : Abi) (pointerSize : Word) (ops : List Operation) (id : ClassId) :
    let m := reached abi pointerSize ops
    (m.offsetTable id).1 = ((ofClasses abi pointerSize m.classes.values).offsetTable id).1 ∧
      ∀ ops', m.hierarchy.AgreeFrom (reached abi pointerSize ops').hierarchy id →
        (m.offsetTable id).1 = ((reached abi pointerSize ops').offsetTable id).1 := by
  intro m
  have hm : m.Coherent := coherent_reached abi pointerSize ops
  obtain ⟨habi, hptr⟩ := parameters_reached abi pointerSize ops
  have other (ops' : List Operation)
      (hagree : m.hierarchy.AgreeFrom (reached abi pointerSize ops').hierarchy id) :
      (m.offsetTable id).1 = ((reached abi pointerSize ops').offsetTable id).1 := by
    obtain ⟨habi', hptr'⟩ := parameters_reached abi pointerSize ops'
    exact hm.offsetTable_congr (coherent_reached abi pointerSize ops') (habi.trans habi'.symm)
      (hptr.trans hptr'.symm) hagree
  refine ⟨other (m.classes.values.map .insert) fun d _ => ?_, other⟩
  exact congrArg (·.get? d) (hm.classes_ofClasses abi pointerSize).symm

/-- A base is replaced between two queries and a query fails; a model that never had the
    old base answers alike. -/
theorem offsetTable_forgets_replaced :
    let base : ClassType := { id := 1, name := "Base", memberSize := 4, memberAlign := 4 }
    let derived : ClassType := { id := 2, name := "Derived", bases := [⟨1, false, true, none⟩] }
    let larger : ClassType := { base with memberSize := 8 }
    let orphan : ClassType := { id := 3, name := "Orphan", bases := [⟨9, false, true, none⟩] }
    let m := reached .itanium 8 [.insert base, .insert derived, .offsetTable 2, .insert orphan,
      .offsetTable 3, .insert larger]
    let m' := reached .itanium 8 [.insert derived, .insert larger]
    m.hierarchy.AgreeFrom m'.hierarchy 2 ∧ (m.offsetTable 2).1 = (m'.offsetTable 2).1 := by
  intro base derived larger orphan m m'
  have hget (d : ClassId) : m.get? d = if d = 1 then some larger else
      if d = 3 then some orphan else if d = 2 then some derived else none := by
    simp only [m, reached, applyAll, List.foldl, apply, get?_insert, get?_offsetTable]
    split
    · rfl
    · rfl
  have hget' (d : ClassId) : m'.get? d = if d = 1 then some larger else
      if d = 2 then some derived else none := by
    simp only [m', reached, applyAll, List.foldl, apply, get?_insert]
    rfl
  have hreach (d : ClassId) (hd : m.hierarchy.Reaches 2 d) : d = 2 ∨ d = 1 := by
    induction hd with
    | refl => exact .inl rfl
    | tail _ hstep ih =>
      obtain ⟨c, hc, spec, hspec, rfl⟩ := hstep
      rcases ih with rfl | rfl
      · obtain rfl : derived = c := Option.some.inj ((hget 2).symm.trans hc)
        exact .inr (congrArg BaseSpec.base (List.mem_singleton.mp hspec))
      · obtain rfl : larger = c := Option.some.inj ((hget 1).symm.trans hc)
        simp [larger, base] at hspec
  have hagree : m.hierarchy.AgreeFrom m'.hierarchy 2 := by
    intro d hd
    refine (hget d).trans (.trans ?_ (hget' d).symm)
    rcases hreach d hd with rfl | rfl <;> rfl
  exact ⟨hagree, (offsetTable_forgets .itanium 8 _ 2).2 _ hagree⟩

end ClassModel

end ClassRecovery
