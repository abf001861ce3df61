/-
  Models with classes that have no offset tables.

  Such classes harm no other, if no other inherits from them (`ClassModel.Apart`).  Then a model with
  them goes on in step with one that lacks them (`ClassModel.InStep`): the tables of all other classes come out the same
  (`InStep.offsetTable`), and so do the layouts, whatever these are built upon (`buildWithin_agree`).
  The classes themselves fail before anything is registered for them (`InStep.buildLayout_extra`).
-/
import ClassRecovery.Proofs.Model.Names

namespace ClassRecovery

namespace ClassModel

/-! ## Classes apart from others -/

/-- The second model has the classes of the first, under the same names, and `extra` besides.  The extra
    classes have no offset tables, and no class of the first model inherits from them. -/
structure Apart (extra : List ClassId) (m m' : ClassModel) : Prop where
  coherent : m.Coherent
  coherent' : m'.Coherent
  abi : m'.abi = m.abi
  pointerSize : m'.pointerSize = m.pointerSize
  fresh : ∀ id ∈ extra, m.get? id = none
  classes : ∀ id ∉ extra, m'.get? id = m.get? id
  typeNames : ∀ id ∉ extra, m'.typeName? id = m.typeName? id
  bases : ∀ id c, m.get? id = some c → ∀ spec ∈ c.bases, spec.base ∉ extra
  untabled : ∀ id ∈ extra, ∃ e, (m'.offsetTable id).1 = .error e

/-- The models have the classes of `m₀` and of `m₀'`; and besides the extra classes, what is registered
    and recorded in the two is the same. -/
structure InStep (extra : List ClassId) (m₀ m₀' m m' : ClassModel) : Prop where
  left : Over m₀.hierarchy m₀.typeNames m
  right : Over m₀'.hierarchy m₀'.typeNames m'
  types : m'.types = m.types
  attributed : m'.attributed = m.attributed
  progress : ∀ id ∉ extra, m'.progressOf id = m.progressOf id

/-- A step gives the same on both sides, and leaves models in step. -/
structure Agree (extra : List ClassId) (m₀ m₀' : ClassModel) {α : Type}
    (r r' : Except ModelError α × ClassModel) : Prop where
  result : r'.1 = r.1
  inStep : InStep extra m₀ m₀' r.2 r'.2

/-- What has to be known of two builders for a class. -/
def BuildAgree (extra : List ClassId) (m₀ m₀' : ClassModel) (build build' : LayoutBuilder)
    (id : ClassId) : Prop :=
  ∀ m m', InStep extra m₀ m₀' m m' → Agree extra m₀ m₀' (build id m).value (build' id m').value

section

variable {extra : List ClassId} {m₀ m₀' m m' : ClassModel}

/-- One step after another. -/
theorem Agree.andThen {α β : Type} {x x' : Except ModelError α × ClassModel}
    {f f' : α → ClassModel → Except ModelError β × ClassModel} (hx : Agree extra m₀ m₀' x x')
    (hf : ∀ a, x.1 = .ok a → ∀ m m', InStep extra m₀ m₀' m m' →
      Agree extra m₀ m₀' (f a m) (f' a m')) :
    Agree extra m₀ m₀' (ClassModel.andThen x f) (ClassModel.andThen x' f') := by
  obtain ⟨result, m⟩ := x
  obtain ⟨result', m'⟩ := x'
  obtain ⟨hresult, hinStep⟩ := hx
  obtain rfl : result' = result := hresult
  cases result' with
  | error e => exact ⟨rfl, hinStep⟩
  | ok a => exact hf a rfl m m' hinStep

section Apart

variable (hapart : Apart extra m₀ m₀')
include hapart

theorem Apart.agreeFrom {id : ClassId} (hid : id ∉ extra) :
    m₀.hierarchy.AgreeFrom m₀'.hierarchy id := by
  intro d hd
  refine (hapart.classes d ?_).symm
  rcases Relation.ReflTransGen.cases_tail hd with rfl | ⟨a, -, c, hc, spec, hspec, rfl⟩
  · exact hid
  · exact hapart.bases a c hc spec hspec

theorem Apart.resolves {id : ClassId} (hid : id ∉ extra) {t : BaseOffsetTable}
    (hr : Resolves m₀.hierarchy id t) : Resolves m₀'.hierarchy id t :=
  hr.congr hapart.abi.symm hapart.pointerSize.symm (hapart.agreeFrom hid)

/-- The bases in the table of a class are not extra classes. -/
theorem Apart.notMem_of_mem_entries {id : ClassId} {t : BaseOffsetTable}
    (hr : Resolves m₀.hierarchy id t) {s : BaseSubobject} (hs : s ∈ t.entries) : s.base ∉ extra := by
  obtain ⟨a, -, c, hc, spec, hspec, hbase⟩ := Relation.TransGen.tail'_iff.mp (hr.inherits_of_mem s hs)
  exact hbase ▸ hapart.bases a c hc spec hspec

end Apart

/-! ## Models in step -/

namespace InStep

variable (h : InStep extra m₀ m₀' m m')
include h

/-- What leaves the classes and the attribution as they are keeps models in step. -/
theorem of_keeps {n n' : ClassModel} (hkeeps : Keeps m n) (hkeeps' : Keeps m' n')
    (htypes : n'.types = n.types) : InStep extra m₀ m₀' n n' where
  left := ⟨hkeeps.2 h.left.coherent, hkeeps.1.hierarchy.trans h.left.hierarchy,
    hkeeps.1.typeNames.trans h.left.typeNames⟩
  right := ⟨hkeeps'.2 h.right.coherent, hkeeps'.1.hierarchy.trans h.right.hierarchy,
    hkeeps'.1.typeNames.trans h.right.typeNames⟩
  types := htypes
  attributed := by rw [hkeeps'.1.attributed, hkeeps.1.attributed, h.attributed]
  progress id hid := by
    rw [progressOf, hkeeps'.1.progress, progressOf, hkeeps.1.progress]
    exact h.progress id hid

section

variable (hapart : Apart extra m₀ m₀')
include hapart

theorem abi : m'.abi = m.abi := by
  rw [h.right.abi_eq, h.left.abi_eq]
  exact hapart.abi

theorem pointerSize : m'.pointerSize = m.pointerSize := by
  rw [h.right.pointerSize_eq, h.left.pointerSize_eq]
  exact hapart.pointerSize

section

variable {id : ClassId} (hid : id ∉ extra)
include hid

theorem get? : m'.get? id = m.get? id := by
  rw [h.right.get?_eq, h.left.get?_eq]
  exact hapart.classes id hid

theorem typeName? : m'.typeName? id = m.typeName? id := by
  rw [h.right.typeName?_eq, h.left.typeName?_eq]
  exact hapart.typeNames id hid

theorem layout? : m'.layout? id = m.layout? id := by
  rw [ClassModel.layout?, h.typeName? hapart hid, h.types, ClassModel.layout?]

/-- **The offset table of a class** is the same, or the error in its place. -/
theorem offsetTable_eq : (m'.offsetTable id).1 = (m.offsetTable id).1 := by
  refine (h.left.coherent.offsetTable_congr h.right.coherent (h.abi hapart).symm
    (h.pointerSize hapart).symm ?_).symm
  rw [h.left.hierarchy, h.right.hierarchy]
  exact hapart.agreeFrom hid

theorem offsetTable : Agree extra m₀ m₀' (m.offsetTable id) (m'.offsetTable id) :=
  ⟨h.offsetTable_eq hapart hid,
    h.of_keeps (keeps_offsetTable m id) (keeps_offsetTable m' id) h.types⟩

end

/-- The layouts of a class are composed alike. -/
theorem compose : m'.compose = m.compose := by
  funext c typeName table direct shared
  simp only [ClassModel.compose, startLayout, h.types, h.abi hapart, h.pointerSize hapart]

end

theorem registerComposition (id : ClassId) (comp : Composition) :
    InStep extra m₀ m₀' (m.registerComposition id comp).value (m'.registerComposition id comp).value := by
  refine h.of_keeps (keeps_registerComposition m id comp) (keeps_registerComposition m' id comp) ?_
  rw [types_registerComposition, types_registerComposition, h.types]

end InStep

/-! ## Building -/

section Building

variable (hapart : Apart extra m₀ m₀')
include hapart

section

variable {build build' : LayoutBuilder}

theorem embedBase_agree {s : BaseSubobject} (hs : s.base ∉ extra)
    (hbuild : BuildAgree extra m₀ m₀' build build' s.base) (h : InStep extra m₀ m₀' m m') :
    Agree extra m₀ m₀' (embedBase build s m).value (embedBase build' s m').value := by
  have hensured : Agree extra m₀ m₀' (ensureWith build s.base m).value
      (ensureWith build' s.base m').value := by
    rw [ensureWith, ensureWith, h.layout? hapart hs]
    cases m.layout? s.base with
    | none => exact hbuild m m' h
    | some l => exact ⟨rfl, h⟩
  rw [value_embedBase, value_embedBase]
  refine hensured.andThen fun _ _ m₁ m₁' h₁ => ?_
  rw [h₁.typeName? hapart hs]
  cases m₁.typeName? s.base with
  | none => exact ⟨rfl, h₁⟩
  | some typeName =>
    exact (h₁.offsetTable hapart hs).andThen fun table _ m₂ m₂' h₂ => ⟨rfl, h₂⟩

theorem embedBases_agree :
    ∀ (l : List BaseSubobject) {m m' : ClassModel},
      (∀ s ∈ l, s.base ∉ extra ∧ BuildAgree extra m₀ m₀' build build' s.base) →
      InStep extra m₀ m₀' m m' →
      Agree extra m₀ m₀' (embedBases build l m).value (embedBases build' l m').value
  | [], m, m', _, h => ⟨rfl, h⟩
  | s :: rest, m, m', hl, h => by
    simp only [List.mem_cons, forall_eq_or_imp] at hl
    rw [value_embedBases_cons, value_embedBases_cons]
    refine (embedBase_agree hapart hl.1.1 hl.1.2 h).andThen fun b _ m₁ m₁' h₁ => ?_
    have hrest := embedBases_agree rest hl.2 h₁
    exact ⟨by rw [hrest.result], hrest.inStep⟩

end

/-- **Building the layout of a class** gives the same on both sides, although there are not as many classes on one
    side as on the other: while classes that inherit from it are being built, the fuel of each side lasts. -/
theorem buildWithin_agree {fuel fuel' : Nat} {pending : List ClassId} {id : ClassId} (hid : id ∉ extra)
    (hunderway : Underway m₀.hierarchy pending id fuel)
    (hunderway' : Underway m₀'.hierarchy pending id fuel') :
    BuildAgree extra m₀ m₀' (buildWithin fuel) (buildWithin fuel') id := by
  induction fuel generalizing fuel' pending id with
  | zero => exact absurd rfl hunderway.ne_zero
  | succ fuel ih =>
    obtain ⟨fuel', rfl⟩ := Nat.exists_eq_succ_of_ne_zero hunderway'.ne_zero
    intro m m' h
    -- Both sides take the same step; the second may have fuel to spare, since it has more classes.
    rw [value_buildWithin_succ, value_buildWithin_succ]
    refine (h.offsetTable hapart hid).andThen fun table htable m₁ m₁' h₁ => ?_
    have hresolves := h.left.resolves htable
    have hbases : ∀ s ∈ table.entries, s.base ∉ extra ∧
        BuildAgree extra m₀ m₀' (buildWithin fuel) (buildWithin fuel') s.base := by
      intro s hs
      have hbase := hapart.notMem_of_mem_entries hresolves hs
      have hresolves' := hapart.resolves hid hresolves
      exact ⟨hbase, ih hbase (hunderway.base hresolves (hresolves.inherits_of_mem s hs))
        (hunderway'.base hresolves' (hresolves'.inherits_of_mem s hs))⟩
    rw [h₁.get? hapart hid, h₁.typeName? hapart hid]
    cases m₁.get? id with
    | none => exact ⟨rfl, h₁⟩
    | some c =>
      cases m₁.typeName? id with
      | none => exact ⟨rfl, h₁⟩
      | some typeName =>
        refine (embedBases_agree hapart _ (fun s hs =>
          hbases s (List.mem_of_mem_filter (List.mem_of_mem_filter hs))) h₁).andThen
          fun direct _ m₂ m₂' h₂ => ?_
        refine (embedBases_agree hapart _ (fun s hs =>
          hbases s (List.mem_of_mem_filter hs)) h₂).andThen fun shared _ m₃ m₃' h₃ => ?_
        rw [h₃.compose hapart]
        cases m₃.compose c typeName table direct shared with
        | error e => exact ⟨rfl, h₃⟩
        | ok comp => exact ⟨rfl, h₃.registerComposition id comp⟩

theorem InStep.buildLayout (h : InStep extra m₀ m₀' m m') {id : ClassId} (hid : id ∉ extra) :
    Agree extra m₀ m₀' (m.buildLayout id).value (m'.buildLayout id).value := by
  have hsize : m.size = m₀.hierarchy.classes.size := by
    rw [← h.left.hierarchy]
    rfl
  have hsize' : m'.size = m₀'.hierarchy.classes.size := by
    rw [← h.right.hierarchy]
    rfl
  rw [ClassModel.buildLayout, hsize, ClassModel.buildLayout, hsize']
  exact buildWithin_agree hapart hid (underway_nil _ id) (underway_nil _ id) m m' h

end Building

/-! ## The extra classes -/

section Extra

variable (h : InStep extra m₀ m₀' m m') {id : ClassId}
include h

/-- Looking for the table of an extra class does not show. -/
theorem InStep.offsetTable_extra : InStep extra m₀ m₀' m (m'.offsetTable id).2 :=
  h.of_keeps (.refl m) (keeps_offsetTable m' id) h.types

variable (hapart : Apart extra m₀ m₀') (hid : id ∈ extra)
include hapart hid

theorem InStep.untabled : ∃ e, (m'.offsetTable id).1 = .error e := by
  obtain ⟨e, he⟩ := hapart.untabled id hid
  refine ⟨e, (h.right.coherent.offsetTable_congr hapart.coherent' h.right.abi_eq
    h.right.pointerSize_eq fun d _ => ?_).trans he⟩
  rw [h.right.hierarchy]

/-- **Building an extra class** fails, and does not show. -/
theorem InStep.buildLayout_extra :
    ∃ e, (m'.buildLayout id).value.1 = .error e ∧ InStep extra m₀ m₀' m (m'.buildLayout id).value.2 := by
  obtain ⟨e, he⟩ := h.untabled hapart hid
  have hvalue : (m'.buildLayout id).value = (.error e, (m'.offsetTable id).2) := by
    rw [ClassModel.buildLayout, value_buildWithin_succ]
    generalize m'.offsetTable id = found at he ⊢
    obtain ⟨result, n⟩ := found
    obtain rfl : result = .error e := he
    rfl
  rw [hvalue]
  exact ⟨e, rfl, h.offsetTable_extra⟩

end Extra

end

/-! ## Where passes begin -/

theorem typeName?_insertions_of_notMem (m : ClassModel) {classes : List ClassType} {id : ClassId}
    (hid : id ∉ classes.map (·.id)) :
    (m.applyAll (classes.map .insert)).typeName? id = m.typeName? id := by
  induction classes generalizing m with
  | nil => rfl
  | cons c classes ih =>
    simp only [List.map_cons, List.mem_cons, not_or] at hid
    exact (ih (m.insert c) hid.2).trans ((typeName?_insert m c id).trans (if_neg hid.1))

section

variable {extra : List ClassId} {m m' : ClassModel} (hapart : Apart extra m m')
include hapart

/-- Without the extra classes, the identities are those of the first model. -/
theorem Apart.ids : m'.ids.filter (· ∉ extra) = m.ids := by
  have hmem (id : ClassId) : id ∈ m'.ids.filter (· ∉ extra) ↔ id ∈ m.ids := by
    rw [List.mem_filter, decide_eq_true_iff, ClassModel.ids, ClassModel.ids, OrderedMap.mem_keys_iff,
      OrderedMap.mem_keys_iff]
    by_cases hid : id ∈ extra
    · have hnone : m.classes.get? id = none := hapart.fresh id hid
      simp [hid, hnone]
    · have hsame : m'.classes.get? id = m.classes.get? id := hapart.classes id hid
      simp [hid, hsame]
  have ascending (m : ClassModel) : m.ids.Pairwise (· < ·) :=
    List.pairwise_map.mpr (m.classes.ascending.imp fun h =>
      UInt64.lt_iff_toNat_lt.mpr (of_decide_eq_true h))
  refine List.Perm.eq_of_pairwise (fun a b _ _ hab hba => (UInt64.lt_asymm hab hba).elim)
    ((ascending m').filter _) (ascending m) ?_
  exact (List.perm_ext_iff_of_nodup (m'.classes.nodup_keys.filter _) m.classes.nodup_keys).mpr hmem

theorem Apart.inStep (hm : m.Untouched) (hm' : m'.Untouched) : InStep extra m m' m m' where
  left := ⟨hapart.coherent, rfl, rfl⟩
  right := ⟨hapart.coherent', rfl, rfl⟩
  types := hm'.types.trans hm.types.symm
  attributed := hm'.attributed.trans hm.attributed.symm
  progress id _ := by rw [progressOf, hm'.progress, progressOf, hm.progress]

end

end ClassModel

end ClassRecovery
