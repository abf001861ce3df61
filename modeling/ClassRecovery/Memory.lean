/-
  Readable memory, and the numbers and names in it.

  A `Region` is a stretch of bytes at positions `0 … size - 1`.  A `PointerFormat` gives the
  width and the byte order of the pointers in it.  Reading answers `none` where the
  bytes read do not all lie in the region; positions are exact numbers, so no sum wraps around.
-/
import ClassRecovery.Architecture

namespace ClassRecovery

/-! ## Regions -/

/-- A stretch of readable bytes.  Only the bytes at positions below `size` count. -/
structure Region where
  size : Nat
  byte : Nat → UInt8

namespace Region

/-- The bytes of an array. -/
def ofBytes (bytes : Array UInt8) : Region := ⟨bytes.size, fun i => bytes.getD i 0⟩

/-- `count` bytes from `offset` on, if all of them lie in the region. -/
def slice? (r : Region) (offset count : Nat) : Option (List UInt8) :=
  if offset + count ≤ r.size then some ((List.range count).map fun i => r.byte (offset + i))
  else none

/-- The bytes from `offset` on that come before the first zero, among the next `count`. -/
def untilZero (r : Region) (offset : Nat) : Nat → List UInt8
  | 0 => []
  | count + 1 =>
    if r.byte offset = 0 then [] else r.byte offset :: untilZero r (offset + 1) count

/-- The text from `offset` to the next zero byte or the end of the region, if there is
    any and it is encoded in UTF-8. -/
def text? (r : Region) (offset : Nat) : Option String :=
  if offset ≤ r.size then
    let bytes := r.untilZero offset (r.size - offset)
    if bytes.isEmpty then none else String.fromUTF8? ⟨bytes.toArray⟩
  else none

end Region

/-! ## Numbers in bytes -/

/-- The number whose lowest byte comes first. -/
def littleValue : List UInt8 → Nat
  | [] => 0
  | b :: rest => b.toNat + 256 * littleValue rest

/-- The `count` lowest bytes of a number, the lowest first. -/
def littleBytes : Nat → Nat → List UInt8
  | 0, _ => []
  | count + 1, n => UInt8.ofNat (n % 256) :: littleBytes count (n / 256)

namespace ByteOrder

/-- The number that bytes denote. -/
def value : ByteOrder → List UInt8 → Nat
  | little, bytes => littleValue bytes
  | big, bytes => littleValue bytes.reverse

/-- The `count` lowest bytes of a number. -/
def bytes : ByteOrder → Nat → Nat → List UInt8
  | little, count, n => littleBytes count n
  | big, count, n => (littleBytes count n).reverse

/-- The number in `count` bytes from `offset` on. -/
def read? (order : ByteOrder) (r : Region) (offset count : Nat) : Option Nat :=
  (r.slice? offset count).map order.value

end ByteOrder

/-! ## Pointers -/

/-- The widths of pointers that can be read. -/
inductive PointerWidth where
  | four
  | eight
  deriving DecidableEq, Repr

/-- The bytes of a pointer. -/
def PointerWidth.bytes : PointerWidth → Nat
  | four => 4
  | eight => 8

theorem PointerWidth.bytes_pos (w : PointerWidth) : 0 < w.bytes := by
  cases w <;> decide

/-- How pointers stand in memory. -/
structure PointerFormat where
  width : PointerWidth
  order : ByteOrder
  deriving DecidableEq, Repr

namespace PointerFormat

/-- The format of pointers of the given number of bytes. -/
def ofSize? (size : Word) (order : ByteOrder) : Except TargetError PointerFormat :=
  if size = 4 then .ok ⟨.four, order⟩
  else if size = 8 then .ok ⟨.eight, order⟩
  else .error (.unsupportedPointerSize size)

/-- The bytes of a pointer. -/
def size (f : PointerFormat) : Nat := f.width.bytes

/-- The 32-bit number at `offset`. -/
def word32? (f : PointerFormat) (r : Region) (offset : Nat) : Option UInt32 :=
  (f.order.read? r offset 4).map UInt32.ofNat

/-- The 64-bit number at `offset`. -/
def word64? (f : PointerFormat) (r : Region) (offset : Nat) : Option Word :=
  (f.order.read? r offset 8).map UInt64.ofNat

/-- The pointer at `offset`. -/
def pointer? (f : PointerFormat) (r : Region) (offset : Nat) : Option Word :=
  (f.order.read? r offset f.size).map UInt64.ofNat

/-- The signed number of pointer width whose bits are those of `n`. -/
def signed (f : PointerFormat) (n : Nat) : Int64 :=
  match f.width with
  | .four => Int64.ofInt (if n < 0x80000000 then n else n - 0x100000000)
  | .eight => (UInt64.ofNat n).toInt64

/-- The signed number of pointer width at `offset`. -/
def signedPointer? (f : PointerFormat) (r : Region) (offset : Nat) : Option Int64 :=
  (f.order.read? r offset f.size).map f.signed

/-- The bytes of a pointer; bits beyond the width are lost. -/
def encode (f : PointerFormat) (value : Word) : List UInt8 := f.order.bytes f.size value.toNat

end PointerFormat

end ClassRecovery
