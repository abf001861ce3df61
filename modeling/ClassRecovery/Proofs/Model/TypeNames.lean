/-
  Type names and classes.

  Whatever was done to a model, each class has one type name, different classes have different ones, and the
  class of a name is the one that has it.  A class is called what it is displayed as, unless another class
  is called so at that moment.  Then a name is searched for, one underscore after the other
  (`ClassModel.FindsName`), and as only finitely many names are taken, every search ends.

  * `ClassModel.typeNames_bijective`: all of this, for any operations on a new model.
-/
import ClassRecovery.Proofs.Model.Success

namespace ClassRecovery

namespace ClassModel

/-! ## The search for a name -/

/-- The search for a name that no other class has, from a candidate on.  It ends with a candidate that is free;
    from one that is taken it goes on with another underscore. -/
inductive FindsName (m : ClassModel) (id : ClassId) : String → String → Prop where
  | free {candidate : String} (h : m.isTaken id candidate = false) : FindsName m id candidate candidate
  | taken {candidate name : String} (h : m.isTaken id candidate = true)
    (rest : FindsName m id (candidate ++ "_") name) : FindsName m id candidate name

theorem FindsName.unique {m : ClassModel} {id : ClassId} {candidate name name' : String}
    (h : m.FindsName id candidate name) (h' : m.FindsName id candidate name') : name = name' := by
  induction h with
  | free hfree =>
    cases h' with
    | free => rfl
    | taken htaken => cases hfree.symm.trans htaken
  | taken htaken _ ih =>
    cases h' with
    | free hfree => cases hfree.symm.trans htaken
    | taken _ hrest => exact ih hrest

/-- With fuel enough to come to a free name, that name is the one that is searched for. -/
theorem findsName_of_isTaken_freeName {m : ClassModel} {id : ClassId} {fuel : Nat} {candidate : String}
    (h : m.isTaken id (m.freeName id candidate fuel) = false) :
    m.FindsName id candidate (m.freeName id candidate fuel) := by
  induction fuel generalizing candidate with
  | zero => exact .free h
  | succ fuel ih =>
    simp only [freeName] at h ⊢
    split
    · next htaken =>
      rw [if_pos htaken] at h
      exact .taken htaken (ih h)
    · next hfree => exact .free (Bool.eq_false_iff.mpr hfree)

/-- **The search for a free name ends.** -/
theorem findsName_freeName (m : ClassModel) (id : ClassId) (candidate : String) :
    m.FindsName id candidate (m.freeName id candidate (m.byTypeName.size + 1)) :=
  findsName_of_isTaken_freeName (m.isTaken_freeName id candidate)

theorem existsUnique_findsName (m : ClassModel) (id : ClassId) (candidate : String) :
    ∃! name, m.FindsName id candidate name :=
  ⟨_, m.findsName_freeName id candidate, fun _ hname => hname.unique (m.findsName_freeName id candidate)⟩

/-! ## The names of classes -/

/-- A name is taken if another class has it. -/
theorem Named.isTaken_iff {m : ClassModel} (hm : m.Named) {id : ClassId} {name : String} :
    m.isTaken id name = true ↔ ∃ d, m.typeName? d = some name ∧ d ≠ id := by
  rw [isTaken, Option.any_eq_true]
  simp only [hm _ name, bne_iff_ne]

theorem Named.isTaken_eq_false_iff {m : ClassModel} (hm : m.Named) {id : ClassId} {name : String} :
    m.isTaken id name = false ↔ ∀ d, m.typeName? d = some name → d = id := by
  simp only [Bool.eq_false_iff, ne_eq, hm.isTaken_iff, not_exists, not_and, not_not]

/-- A class is called what it is displayed as exactly if no other class is called so. -/
theorem uniqueName_eq_self_iff {m : ClassModel} {id : ClassId} {name : String} :
    m.uniqueName id name = name ↔ m.isTaken id name = false := by
  constructor
  · intro hsame
    have hfree := m.isTaken_uniqueName id name
    rwa [hsame] at hfree
  · intro hfree
    rw [uniqueName, hfree, if_neg Bool.false_ne_true]

/-- Another name is what is found from the displayed name and the identity on. -/
theorem findsName_uniqueName {m : ClassModel} {id : ClassId} {name : String} (hne : m.uniqueName id name ≠ name) :
    m.FindsName id (name ++ "_" ++ hexDigits id.toNat) (m.uniqueName id name) := by
  have htaken : m.isTaken id name = true := by
    rw [← Bool.not_eq_false, ← uniqueName_eq_self_iff]
    exact hne
  rw [uniqueName, if_pos htaken]
  exact m.findsName_freeName id _

/-- Looking a name up finds the class that has it. -/
theorem Named.named?_eq_some_iff {m : ClassModel} (hm : m.Named) (hcoherent : m.Coherent) {name : String}
    {c : ClassType} : m.named? name = some c ↔ m.get? c.id = some c ∧ m.typeName? c.id = some name := by
  rw [named?, Option.bind_eq_some_iff]
  constructor
  · rintro ⟨id, hid, hc⟩
    obtain rfl : c.id = id := hcoherent.keyed id c hc
    exact ⟨hc, (hm c.id name).mp hid⟩
  · rintro ⟨hc, hname⟩
    exact ⟨c.id, (hm c.id name).mpr hname, hc⟩

/-- A name that no class has is looked up in vain. -/
theorem Named.named?_eq_none_iff {m : ClassModel} (hm : m.Named) (hcoherent : m.Coherent)
    (htitled : ∀ id, (m.typeName? id).isSome = m.contains id) {name : String} :
    m.named? name = none ↔ ∀ id, m.typeName? id ≠ some name := by
  constructor
  · intro hnone id hname
    -- the class of that name would be found
    obtain ⟨c, hc⟩ := Option.isSome_iff_exists.mp ((htitled id).symm.trans (by rw [hname]; rfl))
    rw [named?, (hm id name).mpr hname, Option.bind_some] at hnone
    cases hnone.symm.trans hc
  · intro hnot
    refine Option.eq_none_iff_forall_ne_some.mpr fun c hc => ?_
    exact hnot c.id ((hm.named?_eq_some_iff hcoherent).mp hc).2

/-- **Classes and type names.**  In every model, the classes and nothing else have a type name, one each; no two
    share one; and a name is that of the class that is found for it, or of none.  A class that is inserted is
    called what it is displayed as, exactly if no other class is called so; else it is called what the search
    for a free name finds, and every search finds one name. -/
theorem typeNames_bijective (abi : Abi) (pointerSize : Word) (ops : List Operation) :
    let m := reached abi pointerSize ops
    (∀ id, m.contains id = true ↔ ∃! name, m.typeName? id = some name) ∧
      (∀ id id' name, m.typeName? id = some name → m.typeName? id' = some name → id = id') ∧
      (∀ name c, m.named? name = some c ↔ m.get? c.id = some c ∧ m.typeName? c.id = some name) ∧
      (∀ name, m.named? name = none ↔ ∀ id, m.typeName? id ≠ some name) ∧
      ∀ c : ClassType,
        ((m.insert c).typeName? c.id = some c.name ↔ ∀ id, m.typeName? id = some c.name → id = c.id) ∧
          (∀ name, (m.insert c).typeName? c.id = some name → name ≠ c.name →
            m.FindsName c.id (c.name ++ "_" ++ hexDigits c.id.toNat) name) ∧
          ∀ candidate, ∃! name, m.FindsName c.id candidate name := by
  intro m
  have hnamed : m.Named := named_reached abi pointerSize ops
  have hcoherent : m.Coherent := coherent_reached abi pointerSize ops
  have htitled (id : ClassId) : (m.typeName? id).isSome = m.contains id :=
    isSome_typeName?_reached abi pointerSize ops id
  refine ⟨fun id => ?_, fun id id' name => hnamed.injective, fun name c => hnamed.named?_eq_some_iff hcoherent,
    fun name => hnamed.named?_eq_none_iff hcoherent htitled, fun c => ?_⟩
  · rw [← htitled, Option.isSome_iff_exists]
    constructor
    · rintro ⟨name, hname⟩
      exact ⟨name, hname, fun name' hname' => Option.some.inj (hname'.symm.trans hname)⟩
    · exact ExistsUnique.exists
  · have hinserted : (m.insert c).typeName? c.id = some (m.uniqueName c.id c.name) := by
      rw [typeName?_insert, if_pos rfl]
    rw [hinserted]
    refine ⟨?_, fun name hname hne => ?_, m.existsUnique_findsName c.id⟩
    · rw [Option.some.injEq, uniqueName_eq_self_iff, hnamed.isTaken_eq_false_iff]
    · obtain rfl := Option.some.inj hname
      exact findsName_uniqueName hne

/-- Of two classes that are displayed alike, the later one has its identity in its name; when it is displayed
    otherwise, it gives this name up. -/
example :
    let first : ClassType := { id := 0x10, name := "Foo" }
    let second : ClassType := { id := 0x20, name := "Foo" }
    let m := reached .itanium 8 [.insert first, .insert second]
    m.typeName? 0x10 = some "Foo" ∧ m.typeName? 0x20 = some "Foo_20" ∧
      (m.insert { second with name := "Bar" }).named? "Foo_20" = none := by
  decide +kernel

end ClassModel

end ClassRecovery
