/-
  Pointers are read as they are written.

  Every string of bytes is the encoding of exactly one number that fits its length, in either byte order.  So a pointer
  is read at a position exactly if its encoding stands there (`PointerFormat.pointer?_eq_some_iff`), and what is
  read as signed is the two's complement of the same bits (`PointerFormat.signedPointer?_eq`,
  `PointerFormat.toInt_signed`).  Reading undoes encoding up to the bits beyond the width, encoding undoes
  reading, and nothing but the end of the bytes keeps a pointer from being read (`PointerFormat.pointers_inverse`).

  * `PointerFormat.pointer?_eq_of_width`: pointers are the numbers of fixed width, widened.
  * `PointerFormat.isSome_pointer?_iff_checkedAdd`: the end of a pointer can as well be computed in words.
-/
import ClassRecovery.Proofs.Memory

namespace ClassRecovery

/-! ## Numbers in bytes -/

theorem littleValue_lt (bytes : List UInt8) : littleValue bytes < 256 ^ bytes.length := by
  induction bytes with
  | nil => decide
  | cons b rest ih =>
    have hb : b.toNat < 256 := b.toNat_lt
    rw [littleValue, List.length_cons, Nat.pow_succ']
    omega

theorem littleBytes_littleValue (bytes : List UInt8) : littleBytes bytes.length (littleValue bytes) = bytes := by
  induction bytes with
  | nil => rfl
  | cons b rest ih =>
    have hb : b.toNat < 256 := b.toNat_lt
    have hfirst : (b.toNat + 256 * littleValue rest) % 256 = b.toNat := by omega
    have hrest : (b.toNat + 256 * littleValue rest) / 256 = littleValue rest := by omega
    rw [littleValue, List.length_cons, littleBytes, hfirst, hrest, ih, UInt8.ofNat_toNat]

namespace ByteOrder

variable {order : ByteOrder}

theorem value_lt (bytes : List UInt8) : order.value bytes < 256 ^ bytes.length := by
  cases order with
  | little => exact littleValue_lt bytes
  | big => simpa [value] using littleValue_lt bytes.reverse

/-- **Bytes are the encoding of the number that they denote.** -/
theorem bytes_value (l : List UInt8) : order.bytes l.length (order.value l) = l := by
  cases order with
  | little => exact littleBytes_littleValue l
  | big =>
    have h := littleBytes_littleValue l.reverse
    rw [List.length_reverse] at h
    rw [bytes, value, h, List.reverse_reverse]

/-- Bits beyond the bytes are lost. -/
theorem bytes_mod (count n : Nat) : order.bytes count (n % 256 ^ count) = order.bytes count n := by
  have h := order.bytes_value (order.bytes count n)
  rwa [length_bytes, value_bytes] at h

/-- **A number is read exactly where it stands**, if it is one of so many bytes. -/
theorem read?_eq_some_iff {r : Region} {offset count n : Nat} :
    order.read? r offset count = some n ↔ n < 256 ^ count ∧ r.Holds offset (order.bytes count n) := by
  constructor
  · intro h
    obtain ⟨l, hl, rfl⟩ := Option.map_eq_some_iff.mp h
    obtain rfl : l.length = count := by
      obtain ⟨-, hl⟩ := Option.ite_none_right_eq_some.mp hl
      simp [← Option.some.inj hl]
    rw [bytes_value]
    exact ⟨value_lt l, hl⟩
  · rintro ⟨hlt, hholds⟩
    rw [read?_of_holds hholds, Nat.mod_eq_of_lt hlt]

end ByteOrder

/-! ## The bytes of an array -/

namespace Region

theorem slice?_ofBytes (bytes : Array UInt8) (offset count : Nat) :
    (ofBytes bytes).slice? offset count =
      if offset + count ≤ bytes.size then some (bytes.extract offset (offset + count)).toList else none := by
  rw [slice?]
  refine ite_congr rfl (fun hfits => ?_) fun _ => rfl
  change offset + count ≤ bytes.size at hfits
  refine congrArg some (List.ext_getElem (by simp; omega) fun i hi _ => ?_)
  have hlt : offset + i < bytes.size := by
    rw [List.length_map, List.length_range] at hi
    omega
  simp [ofBytes, hlt]

theorem holds_ofBytes_iff {bytes : Array UInt8} {offset : Nat} {l : List UInt8} :
    (ofBytes bytes).Holds offset l ↔
      offset + l.length ≤ bytes.size ∧ (bytes.extract offset (offset + l.length)).toList = l := by
  rw [Holds, slice?_ofBytes, Option.ite_none_right_eq_some, Option.some.injEq]

theorem holds_between (before after : Array UInt8) (l : List UInt8) :
    (ofBytes (before ++ l.toArray ++ after)).Holds before.size l := by
  rw [holds_ofBytes_iff]
  exact ⟨by simp, by simp⟩

end Region

/-! ## Pointers -/

namespace PointerFormat

variable {f : PointerFormat} {r : Region} {offset : Nat}

theorem pow_size_le (f : PointerFormat) : 256 ^ f.size ≤ UInt64.size := by
  rw [size]
  cases f.width <;> decide

theorem toNat_ofNat_of_lt {n : Nat} (h : n < 256 ^ f.size) : (UInt64.ofNat n).toNat = n :=
  UInt64.toNat_ofNat_of_lt' (Nat.lt_of_lt_of_le h f.pow_size_le)

/-- **A pointer is read exactly where its encoding stands**, if it is one of this width. -/
theorem pointer?_eq_some_iff {a : Address} :
    f.pointer? r offset = some a ↔ f.Fits a ∧ r.Holds offset (f.encode a) := by
  constructor
  · intro h
    obtain ⟨n, hread, rfl⟩ := Option.map_eq_some_iff.mp h
    obtain ⟨hlt, hholds⟩ := ByteOrder.read?_eq_some_iff.mp hread
    rw [Fits, encode, toNat_ofNat_of_lt hlt]
    exact ⟨hlt, hholds⟩
  · exact fun ⟨hfits, hholds⟩ => pointer?_of_holds hholds hfits

/-- The signed reading is one of the same bits. -/
theorem signedPointer?_eq : f.signedPointer? r offset = (f.pointer? r offset).map fun a => f.signed a.toNat := by
  rw [signedPointer?, pointer?, Option.map_map]
  refine Option.map_congr fun n hread => ?_
  rw [Function.comp_apply, toNat_ofNat_of_lt (ByteOrder.read?_eq_some_iff.mp hread).1]

/-- **The signed reading is the two's complement.** -/
theorem toInt_signed {n : Nat} (h : n < 256 ^ f.size) :
    (f.signed n).toInt = (BitVec.ofNat (8 * f.size) n).toInt := by
  obtain ⟨width, order⟩ := f
  cases width with
  | four =>
    change n < 2 ^ 32 at h
    change (Int64.ofInt (if n < 0x80000000 then n else n - 0x100000000)).toInt = (BitVec.ofNat 32 n).toInt
    rw [BitVec.toInt_eq_toNat_cond, BitVec.toNat_ofNat, Nat.mod_eq_of_lt h,
      Int64.toInt_ofInt_of_le (by split <;> omega) (by split <;> omega)]
    split <;> omega
  | eight => rfl

theorem toNat_signed_mod {n : Nat} (h : n < 256 ^ f.size) : (f.signed n).toUInt64.toNat % 256 ^ f.size = n := by
  obtain ⟨width, order⟩ := f
  cases width with
  | four =>
    simp only [size, PointerWidth.bytes] at h
    simp only [signed, size, PointerWidth.bytes, toNat_toUInt64_ofInt]
    split <;> omega
  | eight =>
    simp only [signed, UInt64.toUInt64_toInt64]
    rw [toNat_ofNat_of_lt h, Nat.mod_eq_of_lt h]

/-- **The readings of fixed width agree with those of pointers**: an unsigned pointer is widened by zeros, a signed
    one by its sign. -/
theorem pointer?_eq_of_width (f : PointerFormat) (r : Region) (offset : Nat) :
    match f.width with
    | .four => f.pointer? r offset = (f.word32? r offset).map UInt32.toUInt64 ∧
        f.signedPointer? r offset = (f.word32? r offset).map fun n => n.toInt32.toInt64
    | .eight => f.pointer? r offset = f.word64? r offset ∧
        f.signedPointer? r offset = (f.word64? r offset).map UInt64.toInt64 := by
  obtain ⟨width, order⟩ := f
  cases width with
  | four =>
    have hlt {n : Nat} (h : order.read? r offset 4 = some n) : n < 2 ^ 32 := (ByteOrder.read?_eq_some_iff.mp h).1
    constructor
    · rw [pointer?, word32?, Option.map_map]
      refine Option.map_congr fun n hread => ?_
      apply UInt64.toNat_inj.mp
      rw [Function.comp_apply, UInt32.toNat_toUInt64, UInt32.toNat_ofNat_of_lt' (hlt hread),
        UInt64.toNat_ofNat_of_lt' (Nat.lt_trans (hlt hread) (by decide))]
    · rw [signedPointer?, word32?, Option.map_map]
      refine Option.map_congr fun n hread => ?_
      apply Int64.toInt_inj.mp
      rw [toInt_signed (hlt hread), Function.comp_apply, Int32.toInt_toInt64]
      rfl
  | eight =>
    refine ⟨rfl, ?_⟩
    rw [signedPointer?, word64?, Option.map_map]
    rfl

/-- What is read as a signed pointer is encoded as its bits. -/
theorem encode_signed {a : Address} (h : f.Fits a) : f.encode (f.signed a.toNat).toUInt64 = f.encode a := by
  rw [encode, ← ByteOrder.bytes_mod, toNat_signed_mod h, encode]

theorem isSome_pointer?_iff : (f.pointer? r offset).isSome = true ↔ offset + f.size ≤ r.size := by
  rw [pointer?, Option.isSome_map, ← Option.ne_none_iff_isSome, Ne, ByteOrder.read?_eq_none_iff, Nat.not_lt]

/-- Positions are exact.  Where words can count the bytes, the same is read if the end of a pointer is computed in
    words: an end that is no word is beyond the end of the bytes. -/
theorem isSome_pointer?_iff_checkedAdd {position : Word} (hsize : r.size < UInt64.size) :
    (f.pointer? r position.toNat).isSome = true ↔
      ∃ stop, checkedAdd position (UInt64.ofNat f.size) = some stop ∧ stop.toNat ≤ r.size := by
  have hwidth : (UInt64.ofNat f.size).toNat = f.size := by
    rw [size]
    cases f.width <;> rfl
  simp only [isSome_pointer?_iff, checkedAdd_eq_some_iff, hwidth]
  constructor
  · intro hle
    have hlt := Nat.lt_of_le_of_lt hle hsize
    have hstop : (UInt64.ofNat (position.toNat + f.size)).toNat = position.toNat + f.size :=
      UInt64.toNat_ofNat_of_lt' hlt
    exact ⟨_, hstop, Nat.le_trans (Nat.le_of_eq hstop) hle⟩
  · rintro ⟨stop, hstop, hle⟩
    exact hstop ▸ hle

/-- **What was encoded is read**: its bits within the width, as they are and as a two's complement. -/
theorem reads_of_holds_encode {v : Word} (h : r.Holds offset (f.encode v)) :
    (f.pointer? r offset).map UInt64.toNat = some (v.toNat % 2 ^ (8 * f.size)) ∧
      (f.signedPointer? r offset).map Int64.toInt = some (BitVec.ofNat (8 * f.size) v.toNat).toInt := by
  have hpow : 2 ^ (8 * f.size) = 256 ^ f.size := Nat.pow_mul 2 8 f.size
  have hread : f.order.read? r offset f.size = some (v.toNat % 256 ^ f.size) := ByteOrder.read?_of_holds h
  have hlt : v.toNat % 256 ^ f.size < 256 ^ f.size := Nat.mod_lt _ (Nat.pow_pos (by decide))
  have hbits : BitVec.ofNat (8 * f.size) (v.toNat % 256 ^ f.size) = BitVec.ofNat (8 * f.size) v.toNat :=
    BitVec.eq_of_toNat_eq (by rw [BitVec.toNat_ofNat, BitVec.toNat_ofNat, hpow, Nat.mod_mod])
  constructor
  · rw [pointer?, hread, Option.map_some, Option.map_some, toNat_ofNat_of_lt hlt, hpow]
  · rw [signedPointer?, hread, Option.map_some, Option.map_some, toInt_signed hlt, hbits]

/-- **What is read has the encoding that stands there.** -/
theorem encode_of_pointer? {bytes : Array UInt8} {a : Address} (h : f.pointer? (.ofBytes bytes) offset = some a) :
    f.encode a = (bytes.extract offset (offset + f.size)).toList := by
  have hholds := (pointer?_eq_some_iff.mp h).2
  rw [Region.holds_ofBytes_iff, length_encode] at hholds
  exact hholds.2.symm

/-- **Reading and encoding pointers are inverse**, for both widths and both byte orders.  Whatever stands before and
    after an encoded word, its bits within the width are read again.  A pointer is read, signed or not, if and only if
    it ends within the bytes, and encoding it again gives the bytes that it was read from. -/
theorem pointers_inverse (f : PointerFormat) :
    (∀ (before after : Array UInt8) (v : Word),
      let r := Region.ofBytes (before ++ (f.encode v).toArray ++ after)
      (f.pointer? r before.size).map UInt64.toNat = some (v.toNat % 2 ^ (8 * f.size)) ∧
      (f.signedPointer? r before.size).map Int64.toInt = some (BitVec.ofNat (8 * f.size) v.toNat).toInt) ∧
    ∀ (bytes : Array UInt8) (offset : Nat),
      let r := Region.ofBytes bytes
      let read := (bytes.extract offset (offset + f.size)).toList
      ((f.pointer? r offset).isSome = true ↔ offset + f.size ≤ bytes.size) ∧
      ((f.signedPointer? r offset).isSome = true ↔ offset + f.size ≤ bytes.size) ∧
      (∀ a, f.pointer? r offset = some a → f.encode a = read) ∧
      ∀ i, f.signedPointer? r offset = some i → f.encode i.toUInt64 = read := by
  constructor
  · intro before after v
    exact reads_of_holds_encode (Region.holds_between before after (f.encode v))
  · intro bytes offset r read
    refine ⟨isSome_pointer?_iff, ?_, fun a => encode_of_pointer?, fun i hi => ?_⟩
    · rw [signedPointer?_eq, Option.isSome_map]
      exact isSome_pointer?_iff
    · rw [signedPointer?_eq] at hi
      obtain ⟨a, ha, rfl⟩ := Option.map_eq_some_iff.mp hi
      rw [encode_signed (pointer?_eq_some_iff.mp ha).1]
      exact encode_of_pointer? ha

/-- Four bytes keep the low half of a word.  Read as signed, its highest bit counts as negative; and at the last
    position of all, nothing is read. -/
example : let f : PointerFormat := ⟨.four, .big⟩
    let r := Region.ofBytes #[7, 0xFF, 0xFF, 0xFF, 0xF0, 7]
    f.encode 0x12FFFFFFF0 = [0xFF, 0xFF, 0xFF, 0xF0] ∧ f.pointer? r 1 = some 0xFFFFFFF0 ∧
      f.signedPointer? r 1 = some (-16) ∧ f.pointer? r maxWord.toNat = none := by
  decide

end PointerFormat

end ClassRecovery
