/-
  Type names.

  Inserting a class gives it a type name that no other class has (`ClassModel.isTaken_uniqueName`), and so
  classes and type names determine each other in every model (`ClassModel.Named`).
-/
import ClassRecovery.Proofs.Model.Building
import ClassRecovery.Proofs.Model.Operations

namespace ClassRecovery

namespace ClassModel

/-! ## Free names -/

/-- A search that ends with a taken name has seen taken names of as many different lengths as it
    took steps. -/
theorem taken_of_isTaken_freeName {m : ClassModel} {id : ClassId} :
    ∀ {fuel : Nat} {candidate : String}, m.isTaken id (m.freeName id candidate fuel) = true →
      ∃ names : List String, names.length = fuel + 1 ∧ names.Nodup ∧
        ∀ name ∈ names, m.isTaken id name = true ∧ candidate.length ≤ name.length
  | 0, candidate, h => by
    simp only [freeName] at h
    exact ⟨[candidate], rfl, by simp, by simpa using h⟩
  | fuel + 1, candidate, h => by
    simp only [freeName] at h
    split at h
    · next htaken =>
      obtain ⟨names, hlength, hnodup, hnames⟩ := taken_of_isTaken_freeName h
      have hlonger : (candidate ++ "_").length = candidate.length + 1 := by
        rw [String.length_append]
        rfl
      have hnot : candidate ∉ names := fun hmem => by
        have := (hnames candidate hmem).2
        omega
      refine ⟨candidate :: names, by simp [hlength], List.nodup_cons.mpr ⟨hnot, hnodup⟩, ?_⟩
      intro name hname
      rcases List.mem_cons.mp hname with rfl | hname
      · exact ⟨htaken, Nat.le_refl _⟩
      · obtain ⟨htaken', hle⟩ := hnames name hname
        exact ⟨htaken', by omega⟩
    · next hfree => exact absurd h hfree

/-- The search ends with a free name: not more names are taken than there are. -/
theorem isTaken_freeName (m : ClassModel) (id : ClassId) (candidate : String) :
    m.isTaken id (m.freeName id candidate (m.byTypeName.size + 1)) = false := by
  rw [Bool.eq_false_iff]
  intro htaken
  obtain ⟨names, hlength, hnodup, hnames⟩ := taken_of_isTaken_freeName htaken
  have hle : names.length ≤ m.byTypeName.size := by
    refine OrderedMap.length_le_size hnodup fun name hname => ?_
    obtain ⟨id', hid', -⟩ := (Option.any_eq_true ..).mp (hnames name hname).1
    rw [hid']
    rfl
  omega

/-- **No other class has the type name of a new class.** -/
theorem isTaken_uniqueName (m : ClassModel) (id : ClassId) (name : String) :
    m.isTaken id (m.uniqueName id name) = false := by
  unfold uniqueName
  split
  · exact m.isTaken_freeName id _
  · next hfree => simpa using hfree

/-! ## Classes and their names -/

/-- Classes and type names determine each other. -/
def Named (m : ClassModel) : Prop :=
  ∀ id name, m.byTypeName.get? name = some id ↔ m.typeName? id = some name

/-- Different classes have different type names. -/
theorem Named.injective {m : ClassModel} (hm : m.Named) {id id' : ClassId} {name : String}
    (h : m.typeName? id = some name) (h' : m.typeName? id' = some name) : id = id' :=
  Option.some.inj (((hm id name).mpr h).symm.trans ((hm id' name).mpr h'))

theorem named_new (abi : Abi) (pointerSize : Word) : (new abi pointerSize).Named := by
  intro id name
  simp [new, typeName?]

theorem typeName?_insert (m : ClassModel) (c : ClassType) (id : ClassId) :
    (m.insert c).typeName? id =
      if id = c.id then some (m.uniqueName c.id c.name) else m.typeName? id :=
  OrderedMap.get?_insert m.typeNames c.id id _

theorem byTypeName_insert (m : ClassModel) (c : ClassType) (name : String) :
    (m.insert c).byTypeName.get? name =
      if name = m.uniqueName c.id c.name then some c.id
      else if m.typeName? c.id = some name then none
      else m.byTypeName.get? name := by
  simp only [ClassModel.insert, OrderedMap.get?_insert]
  split
  · rfl
  · next hne =>
    cases hold : m.typeName? c.id with
    | none => simp
    | some old =>
      simp only [Option.some.injEq]
      split
      · next hsame =>
        rw [if_neg fun heq : old = name => hne (heq.symm.trans hsame)]
      · rw [OrderedMap.get?_erase]
        simp only [eq_comm]

/-- **Inserting keeps classes and type names in step.** -/
theorem Named.insert {m : ClassModel} (hm : m.Named) (c : ClassType) : (m.insert c).Named := by
  intro id name
  rw [byTypeName_insert, typeName?_insert]
  have hfree := m.isTaken_uniqueName c.id c.name
  by_cases hname : name = m.uniqueName c.id c.name
  · rw [if_pos hname, ← hname]
    by_cases hid : id = c.id
    · simp [hid]
    · rw [if_neg hid]
      constructor
      · intro h
        exact absurd (Option.some.inj h).symm hid
      · intro h
        rw [← hname, isTaken, (hm id name).mpr h] at hfree
        simp [hid] at hfree
  · rw [if_neg hname]
    by_cases hid : id = c.id
    · simp only [hid, if_true, Option.some.injEq, (Ne.symm hname : _ ≠ name), iff_false]
      split
      · simp
      · next hold => exact fun h => hold ((hm c.id name).mp h)
    · rw [if_neg hid]
      split
      · next hold =>
        constructor
        · simp
        · exact fun h => absurd (hm.injective h hold) hid
      · exact hm id name

/-! ## Models of inserted classes -/

/-- Nothing is derived from the classes yet but their names, and nothing is recorded. -/
structure Untouched (m : ClassModel) : Prop where
  named : m.Named
  types : m.types = {}
  attributed : m.attributed = .empty
  progress : m.progress = .empty

theorem untouched_ofClasses (abi : Abi) (pointerSize : Word) (classes : List ClassType) :
    (ofClasses abi pointerSize classes).Untouched := by
  suffices ∀ m : ClassModel, m.Untouched → (m.applyAll (classes.map .insert)).Untouched from
    this _ ⟨named_new abi pointerSize, rfl, rfl, rfl⟩
  induction classes with
  | nil => exact fun m hm => hm
  | cons c classes ih =>
    exact fun m hm => ih _ ⟨hm.named.insert c, hm.types, hm.attributed, hm.progress⟩

/-- Nothing is registered in an untouched model. -/
theorem describes_of_untouched {m : ClassModel} (hm : m.Coherent) (h : m.Untouched) :
    Describes m.hierarchy m.typeNames m := by
  refine ⟨hm, rfl, rfl, ?_, ?_⟩
  · intro name l hl
    rw [h.types] at hl
    cases hl
  · intro id typeName comp hcomp hcontains
    rw [h.types] at hcontains
    cases hcontains

theorem value_insertAll (m : ClassModel) (classes : List ClassType) :
    (m.insertAll classes).value = m.applyAll (classes.map .insert) := by
  induction classes generalizing m with
  | nil => rfl
  | cons c classes ih => exact ih (m.insert c)

end ClassModel

end ClassRecovery
