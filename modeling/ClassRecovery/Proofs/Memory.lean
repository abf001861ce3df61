/-
  What memory holds is what is read there.

  A region holds bytes at a position if they stand there (`Region.Holds`).  A number whose bytes are held is read
  back (`ByteOrder.read?_of_holds`), so pointers that fit their width are (`PointerFormat.pointer?_of_holds`), signed
  words of pointer width (`PointerFormat.signedPointer?_of_holds`), and texts in front of a zero byte
  (`Region.text?_of_holds`).  Nothing is read that reaches beyond the end of the region.
-/
import ClassRecovery.Memory
import Mathlib.Algebra.Group.Int.Defs
import Mathlib.Algebra.Group.Nat.Defs

namespace ClassRecovery

/-! ## Numbers in bytes -/

@[simp] theorem length_littleBytes (count n : Nat) : (littleBytes count n).length = count := by
  induction count generalizing n with
  | zero => rfl
  | succ count ih => rw [littleBytes, List.length_cons, ih]

theorem littleValue_littleBytes (count n : Nat) : littleValue (littleBytes count n) = n % 256 ^ count := by
  induction count generalizing n with
  | zero => simp [littleBytes, littleValue, Nat.mod_one]
  | succ count ih =>
    have hbyte : (UInt8.ofNat (n % 256)).toNat = n % 256 := by simp
    rw [littleBytes, littleValue, hbyte, ih, Nat.pow_succ', Nat.mod_mul]

namespace ByteOrder

variable (order : ByteOrder)

@[simp] theorem length_bytes (count n : Nat) : (order.bytes count n).length = count := by
  cases order <;> simp [bytes]

theorem value_bytes (count n : Nat) : order.value (order.bytes count n) = n % 256 ^ count := by
  cases order <;> simp [bytes, value, littleValue_littleBytes]

end ByteOrder

@[simp] theorem PointerFormat.length_encode (f : PointerFormat) (value : Word) : (f.encode value).length = f.size :=
  f.order.length_bytes _ _

/-! ## Regions -/

namespace Region

variable {r : Region} {offset : Nat} {bytes bytes' : List UInt8}

/-- The bytes stand in the region at the offset. -/
def Holds (r : Region) (offset : Nat) (bytes : List UInt8) : Prop := r.slice? offset bytes.length = some bytes

instance : Decidable (r.Holds offset bytes) := inferInstanceAs (Decidable (_ = _))

theorem holds_iff : r.Holds offset bytes ↔ offset + bytes.length ≤ r.size ∧
    ∀ (i : Nat) (h : i < bytes.length), r.byte (offset + i) = bytes[i] := by
  unfold Holds slice?
  split
  · next hfits =>
    rw [Option.some.injEq]
    constructor
    · intro heq
      refine ⟨hfits, fun i hi => ?_⟩
      rw [← List.getElem_of_eq heq (i := i) (by simpa)]
      simp
    · rintro ⟨-, hbytes⟩
      exact List.ext_getElem (by simp) fun i _ hi => by simp [hbytes i hi]
  · next hfits => simp [hfits]

theorem holds_append_iff :
    r.Holds offset (bytes ++ bytes') ↔ r.Holds offset bytes ∧ r.Holds (offset + bytes.length) bytes' := by
  simp only [holds_iff, List.length_append]
  constructor
  · rintro ⟨hfits, hbytes⟩
    refine ⟨⟨by omega, fun i hi => ?_⟩, by omega, fun i hi => ?_⟩
    · rw [hbytes i (by omega), List.getElem_append_left hi]
    · rw [Nat.add_assoc, hbytes _ (by omega), List.getElem_append_right (by omega)]
      simp
  · rintro ⟨⟨-, hbytes⟩, hfits, hbytes'⟩
    refine ⟨by omega, fun i hi => ?_⟩
    by_cases hlt : i < bytes.length
    · rw [hbytes i hlt, List.getElem_append_left hlt]
    · have hmore := hbytes' (i - bytes.length) (by omega)
      rw [show offset + bytes.length + (i - bytes.length) = offset + i by omega] at hmore
      rw [hmore, List.getElem_append_right (by omega)]

theorem Holds.fits (h : r.Holds offset bytes) : offset + bytes.length ≤ r.size := (holds_iff.mp h).1

theorem untilZero_of_holds {count : Nat} (h : r.Holds offset (bytes ++ [0])) (hzero : 0 ∉ bytes)
    (hcount : bytes.length < count) : r.untilZero offset count = bytes := by
  induction bytes generalizing offset count with
  | nil =>
    obtain ⟨count, rfl⟩ := Nat.exists_eq_succ_of_ne_zero (Nat.ne_of_gt hcount)
    have hend : r.byte offset = 0 := (holds_iff.mp h).2 0 (by simp)
    rw [untilZero, if_pos hend]
  | cons b bytes ih =>
    simp only [List.length_cons] at hcount
    obtain ⟨count, rfl⟩ := Nat.exists_eq_succ_of_ne_zero (n := count) (by omega)
    have hfirst : r.byte offset = b := (holds_iff.mp h).2 0 (by simp)
    have hrest : r.Holds (offset + 1) (bytes ++ [0]) :=
      (holds_append_iff.mp (show r.Holds offset ([b] ++ (bytes ++ [0])) from h)).2
    simp only [List.mem_cons, not_or] at hzero
    rw [untilZero, hfirst, if_neg (Ne.symm hzero.1), ih hrest hzero.2 (by omega)]

/-- **A text** is read where its bytes stand in front of the first zero byte. -/
theorem text?_of_holds {text : String} (hne : text ≠ "") (hzero : 0 ∉ text.toByteArray.data.toList)
    (h : r.Holds offset (text.toByteArray.data.toList ++ [0])) : r.text? offset = some text := by
  have hfits := h.fits
  simp only [List.length_append, List.length_singleton] at hfits
  have huntil : r.untilZero offset (r.size - offset) = text.toByteArray.data.toList :=
    untilZero_of_holds h hzero (by omega)
  have hbytes : text.toByteArray.data.toList ≠ [] := by
    simpa [← String.toByteArray_eq_empty_iff, ByteArray.ext_iff] using hne
  have hdecode : String.fromUTF8? text.toByteArray = some text := by
    unfold String.fromUTF8?
    rw [dif_pos text.isValidUTF8]
    rfl
  rw [text?, if_pos (by omega), huntil]
  simp only [Array.toArray_toList, hdecode]
  exact if_neg (by simpa using hbytes)

end Region

/-! ## Numbers that are held -/

/-- The bits of a signed word. -/
theorem toNat_toUInt64_ofInt (i : Int) : (Int64.ofInt i).toUInt64.toNat = (i % 2 ^ 64).toNat := by
  change (BitVec.ofInt 64 i).toNat = _
  simp

theorem ByteOrder.read?_of_holds {order : ByteOrder} {r : Region} {offset count n : Nat}
    (h : r.Holds offset (order.bytes count n)) : order.read? r offset count = some (n % 256 ^ count) := by
  rw [Region.Holds, length_bytes] at h
  rw [read?, h, Option.map_some, value_bytes]

theorem ByteOrder.read?_eq_none_iff {order : ByteOrder} {r : Region} {offset count : Nat} :
    order.read? r offset count = none ↔ r.size < offset + count := by
  simp [read?, Region.slice?]

namespace PointerFormat

variable {f : PointerFormat} {r : Region} {offset : Nat}

/-- The address is one of a pointer of this width. -/
def Fits (f : PointerFormat) (a : Address) : Prop := a.toNat < 256 ^ f.size

instance (f : PointerFormat) (a : Address) : Decidable (f.Fits a) := inferInstanceAs (Decidable (_ < _))

theorem word32?_of_holds {n : UInt32} (h : r.Holds offset (f.order.bytes 4 n.toNat)) :
    f.word32? r offset = some n := by
  have hfits : n.toNat < 256 ^ 4 := n.toNat_lt
  rw [word32?, ByteOrder.read?_of_holds h, Nat.mod_eq_of_lt hfits, Option.map_some, UInt32.ofNat_toNat]

theorem pointer?_of_holds {a : Address} (h : r.Holds offset (f.encode a)) (hfits : f.Fits a) :
    f.pointer? r offset = some a := by
  rw [pointer?, ByteOrder.read?_of_holds h, Nat.mod_eq_of_lt hfits, Option.map_some, UInt64.ofNat_toNat]

/-- A pointer is read within the region. -/
theorem fits_of_pointer? {a : Address} (h : f.pointer? r offset = some a) : offset + f.size ≤ r.size := by
  refine Nat.le_of_not_lt fun hout => ?_
  rw [pointer?, ByteOrder.read?_eq_none_iff.mpr hout] at h
  cases h

/-- The bits of a signed word that fits the width have its value. -/
theorem signed_toUInt64 {i : Int} (hlow : -2 ^ (8 * f.size - 1) ≤ i) (hhigh : i < 2 ^ (8 * f.size - 1)) :
    f.signed ((Int64.ofInt i).toUInt64.toNat % 256 ^ f.size) = Int64.ofInt i := by
  obtain ⟨width, order⟩ := f
  cases width with
  | four =>
    simp only [size, PointerWidth.bytes] at hlow hhigh
    simp only [signed, size, PointerWidth.bytes, toNat_toUInt64_ofInt]
    congr 1
    split <;> omega
  | eight =>
    have hlt : (Int64.ofInt i).toUInt64.toNat < 256 ^ 8 := UInt64.toNat_lt _
    simp only [signed, size, PointerWidth.bytes]
    rw [Nat.mod_eq_of_lt hlt, UInt64.ofNat_toNat, Int64.toInt64_toUInt64]

theorem signedPointer?_of_holds {i : Int} (h : r.Holds offset (f.encode (Int64.ofInt i).toUInt64))
    (hlow : -2 ^ (8 * f.size - 1) ≤ i) (hhigh : i < 2 ^ (8 * f.size - 1)) :
    f.signedPointer? r offset = some (Int64.ofInt i) := by
  rw [signedPointer?, ByteOrder.read?_of_holds h, Option.map_some, signed_toUInt64 hlow hhigh]

end PointerFormat

end ClassRecovery
