/-
  Types and layouts are read back from JSON as they were written.

  What is written of a type is read back whatever counts as the value of `void`, since none is written
  (`CType.ofJsonWith?_toJson`), and all of it can be read, as is asked where the members of an object are looked at
  in any order.  The keys of a store of layouts are kept as they are, also those that are not the names of
  their layouts.
-/
import ClassRecovery.Archive.Types
import ClassRecovery.Proofs.Json.RoundTrips
import ClassRecovery.Proofs.OrderedMap

namespace ClassRecovery

open Json

/-! ## C types -/

/-- **A type is read back**, whatever may be the value of `void`. -/
theorem CType.ofJsonWith?_toJson (isUnit : Json → Bool) (t : CType) :
    ofJsonWith? isUnit t.toJson = some t := by
  induction t with
  | void => simp [toJson, ofJsonWith?]
  | int size signed => simp [toJson, ofJsonWith?]
  | pointer target ih => simp [toJson, ofJsonWith?, ih]
  | array element length ih =>
    simp only [toJson, ofJsonWith?]
    split
    · next j hj =>
      obtain rfl : element.toJson = j := by simpa using hj
      simp [ih]
    · next hnone => exact absurd (by simp) (hnone element.toJson)
  | synonym name target ih =>
    simp only [toJson, ofJsonWith?]
    split
    · next j hj =>
      obtain rfl : target.toJson = j := by simpa using hj
      simp [ih]
    · next hnone => exact absurd (by simp) (hnone target.toJson)
  | named name => simp [toJson, ofJsonWith?]

@[simp]
theorem CType.ofJson?_toJson (t : CType) : ofJson? t.toJson = some t := t.ofJsonWith?_toJson isNull

@[simp]
theorem CType.isReadable_toJson (t : CType) : t.toJson.isReadable = true := by
  induction t with
  | void => simp [toJson, isReadable]
  | int size signed => simp [toJson, isReadable, haveReadable, ofWord]
  | pointer target ih => simp [toJson, isReadable, haveReadable, ih]
  | array element length ih =>
    cases length <;> simp [toJson, isReadable, haveReadable, ih, ofOption, ofWord]
  | synonym name target ih => simp [toJson, isReadable, haveReadable, ih]
  | named name => simp [toJson, isReadable, haveReadable]

/-! ## Prototypes -/

theorem Prototype.ofJson?_toJson (p : Prototype) : ofJson? p.toJson = some p := by
  simp [toJson, ofJson?, pair?]

/-! ## Layouts -/

theorem FieldKind.isReadable_toJson (k : FieldKind) : k.toJson.isReadable = true := by
  cases k with
  | undefined | virtualBasePointer | base => rfl
  | virtualPointer table => cases table <;> rfl
  | member type => simp [toJson, isReadable, haveReadable]

@[simp]
theorem FieldKind.ofJson?_toJson (k : FieldKind) : ofJson? k.toJson = some k := by
  rw [ofJson?, guard_isReadable k.isReadable_toJson]
  cases k with
  | undefined | virtualPointer | virtualBasePointer | base => simp [toJson]
  | member type => simp [toJson, CType.ofJsonWith?_toJson]

@[simp]
theorem Field.ofJson?_toJson (f : Field) : ofJson? f.toJson = some f := by
  simp [toJson, ofJson?]

@[simp]
theorem Layout.ofJson?_toJson (l : Layout) : ofJson? l.toJson = some l := by
  simp [toJson, ofJson?]

/-! ## The store of layouts -/

/-- A map is that of its entries. -/
theorem OrderedMap.ofList_entries {K V : Type} [OrderedKey K] [DecidableEq K] (m : OrderedMap K V) :
    ofList m.entries = m := by
  refine ext fun k => Option.ext fun v => ?_
  rw [get?_ofList_eq_some_iff m.nodup_keys, get?_eq_some_iff]

theorem TypeDatabase.ofJson?_toJson (db : TypeDatabase) : ofJson? db.toJson = some db := by
  have hentries : (db.layouts.entries.map fun e => (e.1, e.2.toJson)).mapM entry? =
      some db.layouts.entries := by
    induction db.layouts.entries with
    | nil => rfl
    | cons e rest ih => simp [ih, entry?]
  simp [toJson, ofJson?, hentries, OrderedMap.ofList_entries]

end ClassRecovery
