/-
  The bases that a record leads to.

  Reading a record leads to the addresses of its bases (`RecordFormat.followed`): to the one of a single base, or to
  those of a list as far as the image has them.  What is read there only gives the names (`RecordFormat.bases_eq`):
  all else that the record says of its bases stands in its own words (`RecordFormat.described`).  A list that is cut
  off leads to the bases before its end, though nothing of them is told.

  * `RecordFormat.map_descriptor_described`: the bases of a descriptor are those that its record leads to, or it has none.
  * `DescriptorKind.abridges_described`: with fewer names, a record says the same otherwise.
-/
import ClassRecovery.Rtti.Record
import Mathlib.Data.List.Forall2

namespace ClassRecovery

/-! ## The same with fewer names -/

/-- The same base, if need be without its name. -/
def BaseRecord.Abridges (b full : BaseRecord) : Prop := b = full ∨ b = { full with name := none }

/-- The same bases, some of them without their names. -/
inductive DescriptorKind.Abridges : DescriptorKind → DescriptorKind → Prop where
  | noBase : Abridges .noBase .noBase
  | single {b full : BaseRecord} (base : b.Abridges full) : Abridges (.single b) (.single full)
  | multiple {flags : HierarchyFlags} {bases full : List BaseRecord}
    (each : List.Forall₂ BaseRecord.Abridges bases full) : Abridges (.multiple flags bases) (.multiple flags full)
  | unknown : Abridges .unknown .unknown

/-- **The same descriptor**, some of its bases without their names. -/
structure TypeDescriptor.Abridges (d full : TypeDescriptor) : Prop where
  address : d.address = full.address
  name : d.name = full.name
  mangledName : d.mangledName = full.mangledName
  kind : d.kind.Abridges full.kind
  vtable : d.vtable = full.vtable

/-- The addresses of the descriptors of the bases. -/
def TypeDescriptor.baseAddresses (d : TypeDescriptor) : List Address := d.kind.bases.map (·.descriptor)

theorem TypeDescriptor.Abridges.refl (d : TypeDescriptor) : d.Abridges d := by
  refine ⟨rfl, rfl, rfl, ?_, rfl⟩
  cases d.kind with
  | noBase => exact .noBase
  | single base => exact .single (.inl rfl)
  | multiple flags bases => exact .multiple (List.forall₂_same.mpr fun _ _ => .inl rfl)
  | unknown => exact .unknown

theorem BaseRecord.Abridges.descriptor {b full : BaseRecord} (h : b.Abridges full) :
    b.descriptor = full.descriptor := by
  rcases h with rfl | rfl <;> rfl

theorem TypeDescriptor.Abridges.baseAddresses {d full : TypeDescriptor} (h : d.Abridges full) :
    d.baseAddresses = full.baseAddresses := by
  have hkind := h.kind
  unfold TypeDescriptor.baseAddresses
  generalize d.kind = kind at hkind ⊢
  generalize full.kind = fullKind at hkind ⊢
  cases hkind with
  | noBase => rfl
  | single hbase => simp only [DescriptorKind.bases, List.map_cons, List.map_nil, hbase.descriptor]
  | multiple hbases =>
    simp only [DescriptorKind.bases]
    induction hbases with
    | nil => rfl
    | cons hbase _ ih => rw [List.map_cons, List.map_cons, hbase.descriptor, ih]
  | unknown => rfl

namespace RecordFormat

variable (format : RecordFormat) (image : Image)

/-! ## The words of a record -/

/-- The words of the bases in a list of the given length, up to the first that are cut off. -/
def readableBases : Nat → Nat → List (Address × Int64)
  | 0, _ => []
  | count + 1, position =>
    match format.baseWords? image position with
    | none => []
    | some words => words :: readableBases count (position + 2 * format.pointers.size)

/-- The base of a list with the given words and name. -/
def listedBase (words : Address × Int64) (name : Option String) : BaseRecord :=
  ⟨words.1, name, (BaseFlags.split words.2).2, (BaseFlags.split words.2).1⟩

/-- The addresses of the bases that reading a record leads to, in order. -/
def followed (kind : RecordKind) (head : RecordHead) : List Address :=
  let third := head.position + 2 * format.pointers.size
  match kind with
  | .plain => []
  | .single => (format.pointers.pointer? image.region third).toList
  | .multiple =>
    match format.pointers.word32? image.region third, format.pointers.word32? image.region (third + 4) with
    | some _, some count => (format.readableBases image count.toNat (third + 8)).map (·.1)
    | _, _ => []

/-- What a record says of its bases, when the ones it leads to have the given names. -/
def described (kind : RecordKind) (head : RecordHead) (names : List (Option String)) : DescriptorKind :=
  let third := head.position + 2 * format.pointers.size
  match kind with
  | .plain => .noBase
  | .single =>
    match format.pointers.pointer? image.region third with
    | none => .unknown
    | some base => .single ⟨base, names.head?.join, 0, .publicBase⟩
  | .multiple =>
    match format.pointers.word32? image.region third, format.pointers.word32? image.region (third + 4) with
    | some flags, some count =>
      let listed := format.readableBases image count.toNat (third + 8)
      if listed.length = count.toNat then .multiple (.ofRaw flags) (List.zipWith listedBase listed names)
      else .unknown
    | _, _ => .unknown

/-- Reads the descriptors at addresses one after the other. -/
def readEach (read : BaseReader) : List Address → DescriptorCache → List (Option TypeDescriptor) × DescriptorCache
  | [], cache => ([], cache)
  | address :: rest, cache =>
    let answer := read address cache
    let others := readEach read rest answer.2
    (answer.1 :: others.1, others.2)

/-- The names in what was read. -/
def namesOf (answers : List (Option TypeDescriptor)) : List (Option String) :=
  answers.map fun answer => answer.map (·.name)

theorem baseList_eq (readBase : BaseReader) (count position : Nat) (cache : DescriptorCache) :
    let listed := format.readableBases image count position
    let answers := readEach readBase (listed.map (·.1)) cache
    format.baseList image readBase count position cache =
      (if listed.length = count then some (List.zipWith listedBase listed (namesOf answers.1)) else none,
        answers.2) := by
  induction count generalizing position cache with
  | zero => rfl
  | succ count ih =>
    cases hwords : format.baseWords? image position with
    | none => simp [baseList, readableBases, hwords, readEach]
    | some words =>
      simp only [baseList, readableBases, hwords, ih, List.map_cons, List.length_cons, readEach, namesOf,
        Nat.add_right_cancel_iff]
      split <;> rfl

/-- **What is read of the bases** is their names, and the rest is known from the record itself. -/
theorem bases_eq (readBase : BaseReader) (kind : RecordKind) (head : RecordHead) (cache : DescriptorCache) :
    let answers := readEach readBase (format.followed image kind head) cache
    format.bases image readBase kind head cache =
      (format.described image kind head (namesOf answers.1), answers.2) := by
  cases kind with
  | plain => rfl
  | single =>
    simp only [bases, singleBase, followed, described]
    cases format.pointers.pointer? image.region (head.position + 2 * format.pointers.size) <;> rfl
  | multiple =>
    simp only [bases, multipleBases, followed, described]
    cases format.pointers.word32? image.region (head.position + 2 * format.pointers.size) with
    | none => rfl
    | some flags =>
      cases format.pointers.word32? image.region (head.position + 2 * format.pointers.size + 4) with
      | none => rfl
      | some count =>
        simp only [baseList_eq]
        split <;> rfl

/-! ## The bases of a descriptor -/

variable {format image}

/-- What holds of the bases that a record leads to, and their names, holds of those it tells of. -/
theorem of_mem_bases_described {kind : RecordKind} {head : RecordHead} {names : List (Option String)}
    {R : Address → Option String → Prop} (h : List.Forall₂ R (format.followed image kind head) names)
    {b : BaseRecord} (hb : b ∈ (format.described image kind head names).bases) : R b.descriptor b.name := by
  cases kind with
  | plain => cases hb
  | single =>
    simp only [followed, described] at h hb
    split at hb
    · cases hb
    · next base hbase =>
      rw [hbase, Option.toList_some, List.forall₂_cons_left_iff] at h
      obtain ⟨name, rest, hname, -, rfl⟩ := h
      obtain rfl := List.mem_singleton.mp hb
      exact hname
  | multiple =>
    simp only [followed, described] at h hb
    split at hb
    · next flags count hflags hcount =>
      simp only [hflags, hcount] at h
      split at hb
      · simp only [DescriptorKind.bases] at hb
        generalize format.readableBases image count.toNat _ = listed at h hb
        induction listed generalizing names with
        | nil => simp at hb
        | cons words listed ih =>
          rw [List.map_cons, List.forall₂_cons_left_iff] at h
          obtain ⟨name, rest, hname, hrest, rfl⟩ := h
          rcases List.mem_cons.mp hb with rfl | hb
          · exact hname
          · exact ih hrest hb
      · cases hb
    · cases hb

/-- A record tells of all bases that it leads to, or of nothing. -/
theorem map_descriptor_described {kind : RecordKind} {head : RecordHead} {names : List (Option String)}
    (hlength : names.length = (format.followed image kind head).length) :
    (format.described image kind head names).bases.map (·.descriptor) = format.followed image kind head ∨
      format.described image kind head names = .unknown := by
  cases kind with
  | plain => exact .inl rfl
  | single =>
    simp only [followed, described]
    split
    · exact .inr rfl
    · next base hbase => exact .inl (by simp [hbase, DescriptorKind.bases])
  | multiple =>
    simp only [followed, described] at hlength ⊢
    split
    · next flags count hflags hcount =>
      simp only [hflags, hcount, List.length_map] at hlength ⊢
      split
      · refine .inl ?_
        simp only [DescriptorKind.bases, List.map_zipWith, listedBase]
        generalize format.readableBases image count.toNat _ = listed at hlength ⊢
        induction listed generalizing names with
        | nil => simp
        | cons words listed ih =>
          cases names with
          | nil => cases hlength
          | cons name names =>
            rw [List.zipWith_cons_cons, List.map_cons, ih (Nat.add_right_cancel hlength)]
      · exact .inr rfl
    · exact .inr rfl

/-- **With fewer names** a record says the same otherwise. -/
theorem abridges_described {kind : RecordKind} {head : RecordHead} {names full : List (Option String)}
    (h : List.Forall₂ (fun name fullName => name = fullName ∨ name = none) names full) :
    (format.described image kind head names).Abridges (format.described image kind head full) := by
  cases kind with
  | plain => exact .noBase
  | single =>
    simp only [described]
    split
    · exact .unknown
    · cases h with
      | nil => exact .single (.inl rfl)
      | cons hname _ =>
        refine .single ?_
        rcases hname with rfl | rfl
        · exact .inl rfl
        · exact .inr rfl
  | multiple =>
    simp only [described]
    split
    · split
      · refine .multiple ?_
        generalize format.readableBases image _ _ = listed
        induction h generalizing listed with
        | nil => simp
        | cons hname _ ih =>
          cases listed with
          | nil => exact .nil
          | cons words listed =>
            refine .cons ?_ (ih listed)
            rcases hname with rfl | rfl
            · exact .inl rfl
            · exact .inr rfl
      · exact .unknown
    · exact .unknown

end RecordFormat

end ClassRecovery
