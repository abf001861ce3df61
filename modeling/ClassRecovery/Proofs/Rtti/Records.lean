/-
  Records of type descriptors in memory.

  `RecordBody.encode` writes what stands in a record behind its head: nothing for a class without bases, the address
  of the base's descriptor for a single base, and flags, a count and two words for each base otherwise.
  A reader that has read nothing yet, and knows the record's table, reads off an address at which a head
  stands the name, and behind the head all bases of the record, or nothing if the image ends within them
  (`RecordFormat.read_record`).
-/
import ClassRecovery.Proofs.Memory
import ClassRecovery.Rtti.Record
import Mathlib.Data.List.Forall2
import Mathlib.Data.Nat.Bitwise

namespace ClassRecovery

/-! ## The encoding -/

/-- A base in a record with a list of bases. -/
structure BaseEntry where
  /-- The address of the base's own descriptor. -/
  descriptor : Address
  offset : Int
  flags : UInt8
  deriving DecidableEq, Repr

/-- What stands in a record behind its head. -/
inductive RecordBody where
  | plain
  | single (descriptor : Address)
  | multiple (flags : UInt32) (entries : List BaseEntry)
  deriving DecidableEq, Repr

namespace BaseEntry

/-- The signed word of a base: its offset above the lowest byte, and its flags in it. -/
def word (e : BaseEntry) : Int := e.offset * 256 + e.flags.toNat

def encode (f : PointerFormat) (e : BaseEntry) : List UInt8 :=
  f.encode e.descriptor ++ f.encode (Int64.ofInt e.word).toUInt64

/-- The descriptor has an address of pointer width, and the offset fits above the flags. -/
structure Fits (f : PointerFormat) (e : BaseEntry) : Prop where
  descriptor : f.Fits e.descriptor
  le_offset : -2 ^ (8 * f.size - 9) ≤ e.offset
  offset_lt : e.offset < 2 ^ (8 * f.size - 9)

/-- The record of a base in a descriptor says what the entry says. -/
structure Describes (e : BaseEntry) (b : BaseRecord) : Prop where
  descriptor : b.descriptor = e.descriptor
  offset : b.offset.toInt = e.offset
  isVirtual : b.flags.isVirtual = e.flags.toNat.testBit 0
  isPublic : b.flags.isPublic = e.flags.toNat.testBit 1
  raw : b.flags.raw.toInt64.toInt = e.word

end BaseEntry

namespace RecordBody

def kind : RecordBody → RecordKind
  | plain => .plain
  | single _ => .single
  | multiple _ _ => .multiple

def encode (f : PointerFormat) : RecordBody → List UInt8
  | plain => []
  | single descriptor => f.encode descriptor
  | multiple flags entries =>
    f.order.bytes 4 flags.toNat ++ (f.order.bytes 4 entries.length ++ entries.flatMap (BaseEntry.encode f))

/-- The parts of the body can be encoded without loss. -/
def Fits (f : PointerFormat) : RecordBody → Prop
  | plain => True
  | single descriptor => f.Fits descriptor
  | multiple _ entries => entries.length < UInt32.size ∧ ∀ e ∈ entries, e.Fits f

/-- The kind of a descriptor says what the body says. -/
def Describes : RecordBody → DescriptorKind → Prop
  | plain, kind => kind = .noBase
  | single descriptor, kind => ∃ b, kind = .single b ∧ b.descriptor = descriptor ∧ b.offset = 0 ∧
      b.flags.isPublic = true ∧ b.flags.isVirtual = false
  | multiple flags entries, kind => ∃ hierarchy records, kind = .multiple hierarchy records ∧
      hierarchy.raw = flags ∧ hierarchy.repeated = flags.toNat.testBit 0 ∧
      hierarchy.diamond = flags.toNat.testBit 1 ∧ List.Forall₂ BaseEntry.Describes entries records

end RecordBody

/-- The region ends within the body of a record of the given kind at the position. -/
def RecordKind.CutOff (f : PointerFormat) (r : Region) (position : Nat) : RecordKind → Prop
  | plain => False
  | single => r.size < position + f.size
  | multiple => r.size < position + 8 ∨ ∃ count : UInt32,
      r.Holds (position + 4) (f.order.bytes 4 count.toNat) ∧ r.size < position + 8 + count.toNat * (2 * f.size)

/-- The head of a record stands at the address, which is the given position of the image: it has the given table, and
    its name is the given text, in front of a zero byte. -/
structure RecordFormat.Begins (format : RecordFormat) (image : Image) (address : Address) (position : Nat)
    (vtable : Address) (text : String) : Prop where
  at_position : image.position? address = some position
  fits_vtable : format.pointers.Fits vtable
  ne_empty : text ≠ ""
  nonzero : 0 ∉ text.toByteArray.data.toList
  exists_name : ∃ name textPosition, format.pointers.Fits name ∧ image.position? name = some textPosition ∧
    image.region.Holds position (format.pointers.encode vtable ++ format.pointers.encode name) ∧
    image.region.Holds textPosition (text.toByteArray.data.toList ++ [0])

/-! ## Words of bases -/

theorem toInt_shiftRight_eight (w : Int64) : (w >>> 8).toInt = w.toInt / 256 := by
  change (w.toBitVec.sshiftRight 8).toInt = w.toBitVec.toInt / 256
  rw [BitVec.toInt_sshiftRight, Int.shiftRight_eq_div_pow]
  rfl

/-- The bits of the lowest byte of a word. -/
theorem testBit_toNat_toUInt64 {i : Int} {k : Nat} (hk : k < 8) :
    (Int64.ofInt i).toUInt64.toNat.testBit k = (i % 256).toNat.testBit k := by
  have hlow : (i % 256).toNat = (i % 2 ^ 64).toNat % 2 ^ 8 := by omega
  rw [toNat_toUInt64_ofInt, hlow, Nat.testBit_mod_two_pow]
  simp [hk]

theorem and_two_pow_bne_zero (n k : Nat) : (n &&& 2 ^ k != 0) = n.testBit k := by
  rw [Nat.and_two_pow]
  cases n.testBit k <;> simp

/-- A flag of a word is a bit of its value. -/
theorem UInt64.and_bne_zero (a b : UInt64) : (a &&& b != 0) = (a.toNat &&& b.toNat != 0) := by
  rw [Bool.eq_iff_iff, bne_iff_ne, bne_iff_ne, ne_eq, ne_eq, ← UInt64.toNat_inj, UInt64.toNat_and]
  rfl

theorem UInt32.and_bne_zero (a b : UInt32) : (a &&& b != 0) = (a.toNat &&& b.toNat != 0) := by
  rw [Bool.eq_iff_iff, bne_iff_ne, bne_iff_ne, ne_eq, ne_eq, ← UInt32.toNat_inj, UInt32.toNat_and]
  rfl

namespace BaseEntry

variable {f : PointerFormat} {e : BaseEntry}

theorem Fits.word_bounds (h : e.Fits f) : -2 ^ (8 * f.size - 1) ≤ e.word ∧ e.word < 2 ^ (8 * f.size - 1) := by
  have hflags := e.flags.toNat_lt
  have hlow := h.le_offset
  have hhigh := h.offset_lt
  obtain ⟨width, order⟩ := f
  cases width <;> simp only [PointerFormat.size, PointerWidth.bytes, word] at * <;> omega

theorem toInt_ofInt_word (h : e.Fits f) : (Int64.ofInt e.word).toInt = e.word := by
  have hbounds := h.word_bounds
  obtain ⟨width, order⟩ := f
  cases width <;> simp only [PointerFormat.size, PointerWidth.bytes] at hbounds <;>
    exact Int64.toInt_ofInt_of_le (by omega) (by omega)

/-- **Splitting the word of a base** gives what the entry says. -/
theorem describes_split (h : e.Fits f) (name : Option String) :
    e.Describes ⟨e.descriptor, name, (BaseFlags.split (Int64.ofInt e.word)).2,
      (BaseFlags.split (Int64.ofInt e.word)).1⟩ := by
  have hflags := e.flags.toNat_lt
  have hbyte : (e.word % 256).toNat = e.flags.toNat := by simp only [word]; omega
  refine ⟨rfl, ?_, ?_, ?_, ?_⟩
  · simp only [BaseFlags.split]
    rw [toInt_shiftRight_eight, toInt_ofInt_word h, word]
    omega
  · rw [← hbyte, ← testBit_toNat_toUInt64 (by decide), ← and_two_pow_bne_zero]
    exact UInt64.and_bne_zero _ 1
  · rw [← hbyte, ← testBit_toNat_toUInt64 (by decide), ← and_two_pow_bne_zero]
    exact UInt64.and_bne_zero _ 2
  · simp only [BaseFlags.split, Int64.toInt64_toUInt64, toInt_ofInt_word h]

end BaseEntry

/-! ## Reading -/

namespace RecordFormat

variable {format : RecordFormat} {image : Image} {address vtable : Address} {position : Nat} {text : String}

theorem Begins.head? (h : format.Begins image address position vtable text) :
    format.head? image address = some ⟨position, vtable, text⟩ := by
  obtain ⟨name, textPosition, hname, htextPosition, hhead, htext⟩ := h.exists_name
  obtain ⟨hvtable, hpointer⟩ := Region.holds_append_iff.mp hhead
  rw [PointerFormat.length_encode] at hpointer
  simp [RecordFormat.head?, h.at_position, PointerFormat.pointer?_of_holds hvtable h.fits_vtable,
    PointerFormat.pointer?_of_holds hpointer hname, htextPosition,
    Region.text?_of_holds h.ne_empty h.nonzero htext]

variable {readBase : BaseReader} {cache : DescriptorCache}

theorem baseList_of_holds {entries : List BaseEntry} (hfits : ∀ e ∈ entries, e.Fits format.pointers)
    (h : image.region.Holds position (entries.flatMap (BaseEntry.encode format.pointers))) :
    ∃ records, (format.baseList image readBase entries.length position cache).1 = some records ∧
      List.Forall₂ BaseEntry.Describes entries records := by
  induction entries generalizing position cache with
  | nil => exact ⟨[], rfl, .nil⟩
  | cons e entries ih =>
    rw [List.flatMap_cons, Region.holds_append_iff] at h
    obtain ⟨hentry, hentries⟩ := h
    obtain ⟨hdescriptor, hword⟩ := Region.holds_append_iff.mp hentry
    have he := hfits e List.mem_cons_self
    have hlength : (e.encode format.pointers).length = 2 * format.pointers.size := by
      simp only [BaseEntry.encode, List.length_append, PointerFormat.length_encode]
      omega
    rw [hlength] at hentries
    rw [PointerFormat.length_encode] at hword
    have hwords : format.baseWords? image position = some (e.descriptor, Int64.ofInt e.word) := by
      simp [baseWords?, PointerFormat.pointer?_of_holds hdescriptor he.descriptor,
        PointerFormat.signedPointer?_of_holds hword he.word_bounds.1 he.word_bounds.2]
    obtain ⟨records, hrecords, hdescribes⟩ : ∃ records,
        (format.baseList image readBase entries.length (position + 2 * format.pointers.size)
          (readBase e.descriptor cache).2).1 = some records ∧ List.Forall₂ BaseEntry.Describes entries records :=
      ih (fun e he => hfits e (List.mem_cons_of_mem _ he)) hentries
    refine ⟨⟨e.descriptor, (readBase e.descriptor cache).1.map (·.name), _, _⟩ :: records, ?_,
      .cons (BaseEntry.describes_split he _) hdescribes⟩
    rw [List.length_cons, baseList, hwords]
    simp only [hrecords, Option.map_some]

theorem fits_of_baseWords? {words : Address × Int64} (h : format.baseWords? image position = some words) :
    position + 2 * format.pointers.size ≤ image.region.size := by
  by_contra hlt
  have hnone : format.pointers.order.read? image.region (position + format.pointers.size) format.pointers.size = none :=
    ByteOrder.read?_eq_none_iff.mpr (by omega)
  simp [baseWords?, PointerFormat.signedPointer?, hnone] at h

theorem baseList_of_cutOff {count : Nat} (hposition : position ≤ image.region.size)
    (h : image.region.size < position + count * (2 * format.pointers.size)) :
    (format.baseList image readBase count position cache).1 = none := by
  induction count generalizing position cache with
  | zero => omega
  | succ count ih =>
    rw [baseList]
    cases hwords : format.baseWords? image position with
    | none => rfl
    | some words =>
      rw [Nat.succ_mul] at h
      simp only [ih (fits_of_baseWords? hwords) (by omega), Option.map_none]

theorem bases_of_holds {body : RecordBody} {mangledName : String} (hfits : body.Fits format.pointers)
    (h : image.region.Holds (position + 2 * format.pointers.size) (body.encode format.pointers)) :
    body.Describes (format.bases image readBase body.kind ⟨position, vtable, mangledName⟩ cache).1 := by
  cases body with
  | plain => rfl
  | single descriptor =>
    have hpointer := PointerFormat.pointer?_of_holds h hfits
    simp only [RecordBody.kind, bases, singleBase, hpointer]
    exact ⟨_, rfl, rfl, rfl, rfl, rfl⟩
  | multiple flags entries =>
    obtain ⟨hflags, hrest⟩ := Region.holds_append_iff.mp h
    obtain ⟨hcount, hentries⟩ := Region.holds_append_iff.mp hrest
    have hcount' : (UInt32.ofNat entries.length).toNat = entries.length := UInt32.toNat_ofNat_of_lt' hfits.1
    rw [← hcount', ByteOrder.length_bytes] at hcount
    simp only [ByteOrder.length_bytes] at hentries
    change image.region.Holds (position + 2 * format.pointers.size + 8) _ at hentries
    obtain ⟨records, hrecords, hdescribes⟩ : ∃ records,
        (format.baseList image readBase entries.length (position + 2 * format.pointers.size + 8) cache).1 =
          some records ∧ List.Forall₂ BaseEntry.Describes entries records :=
      baseList_of_holds hfits.2 hentries
    refine ⟨.ofRaw flags, records, ?_, rfl, ?_, ?_, hdescribes⟩
    · simp only [RecordBody.kind, bases, multipleBases, PointerFormat.word32?_of_holds hflags,
        PointerFormat.word32?_of_holds hcount, hcount', hrecords, Option.elim_some]
    · rw [← and_two_pow_bne_zero]
      exact UInt32.and_bne_zero _ 1
    · rw [← and_two_pow_bne_zero]
      exact UInt32.and_bne_zero _ 2

theorem bases_of_cutOff {kind : RecordKind} {mangledName : String}
    (h : kind.CutOff format.pointers image.region (position + 2 * format.pointers.size)) :
    (format.bases image readBase kind ⟨position, vtable, mangledName⟩ cache).1 = .unknown := by
  cases kind with
  | plain => cases h
  | single =>
    have hnone : format.pointers.order.read? image.region (position + 2 * format.pointers.size)
        format.pointers.size = none := ByteOrder.read?_eq_none_iff.mpr h
    simp [bases, singleBase, PointerFormat.pointer?, hnone]
  | multiple =>
    simp only [bases, multipleBases]
    rcases h with hend | ⟨count, hcount, hend⟩
    · have hnone : format.pointers.order.read? image.region (position + 2 * format.pointers.size + 4) 4 = none :=
        ByteOrder.read?_eq_none_iff.mpr (by omega)
      simp [PointerFormat.word32?, hnone]
    · have hfits := hcount.fits
      rw [ByteOrder.length_bytes] at hfits
      rw [PointerFormat.word32?_of_holds hcount]
      cases format.pointers.word32? image.region (position + 2 * format.pointers.size) with
      | none => rfl
      | some flags => simp [baseList_of_cutOff (by omega) hend]

/-- **Reading a record** whose table is known, with nothing read before.  Where its head stands, a descriptor is read
    with its name; if the encoding of its body stands behind the head, the descriptor says what the body says, and
    if the image ends within the body, it says nothing of bases. -/
theorem read_record {kind : RecordKind} (h : format.Begins image address position vtable text)
    (hkind : format.kinds.get? vtable = some kind) :
    ∃ d, (format.read image address []).1 = some d ∧ d.address = address ∧ d.vtable = vtable ∧
      d.mangledName = text ∧ d.name = demangle text ∧
      (∀ body : RecordBody, body.kind = kind → body.Fits format.pointers →
        image.region.Holds (position + 2 * format.pointers.size) (body.encode format.pointers) →
        body.Describes d.kind) ∧
      (kind.CutOff format.pointers image.region (position + 2 * format.pointers.size) → d.kind = .unknown) := by
  have hkindOf : format.kindOf image ⟨position, vtable, text⟩ = kind := by simp only [kindOf, hkind]
  simp only [read, readWithin, DescriptorCache.find?, List.find?_nil, List.contains_nil, Bool.false_eq_true,
    if_false, h.head?, hkindOf]
  refine ⟨_, rfl, rfl, rfl, rfl, rfl, ?_, bases_of_cutOff⟩
  rintro body rfl hfits hbody
  exact bases_of_holds hfits hbody

/-- Pointers of four bytes, the highest first, and one table for records with a list of bases. -/
def bigFormat : RecordFormat := ⟨⟨.four, .big⟩, .ofList [(0x2000, .multiple)]⟩

/-- A record with one base, virtual and public, whose word is `-4` above the byte `3`; behind it the name. -/
def virtualBaseImage : Image where
  base := 0x1000
  region := .ofBytes #[0, 0, 0x20, 0, 0, 0, 0x10, 0x18, 0, 0, 0, 1, 0, 0, 0, 1, 0, 0, 0x10, 0, 0xFF, 0xFF, 0xFC, 3,
    0x31, 0x41, 0]

theorem begins_virtualBaseImage : bigFormat.Begins virtualBaseImage 0x1000 0 0x2000 "1A" where
  at_position := by decide
  fits_vtable := by decide
  ne_empty := by decide
  nonzero := by decide
  exists_name := ⟨0x1018, 24, by decide, by decide, by decide, by decide⟩

theorem read_record_virtualBase : ∃ d, (bigFormat.read virtualBaseImage 0x1000 []).1 = some d ∧ d.name = "A" ∧
    (RecordBody.multiple 1 [⟨0x1000, -4, 3⟩]).Describes d.kind := by
  obtain ⟨d, hread, -, -, -, hname, hbody, -⟩ :=
    read_record begins_virtualBaseImage (show bigFormat.kinds.get? 0x2000 = some .multiple by decide)
  have hdemangle : demangle "1A" = "A" := by decide +kernel
  refine ⟨d, hread, hname.trans hdemangle, hbody _ rfl ⟨by decide, ?_⟩ ?_⟩
  · intro e he
    obtain rfl := List.mem_singleton.mp he
    exact ⟨by decide, by decide, by decide⟩
  · decide

end RecordFormat

end ClassRecovery
