/-
  Hexadecimal text of words and bytes, in lower case.
-/
import ClassRecovery.Word

namespace ClassRecovery

/-- The hexadecimal digits of `n`, without leading zeros. -/
def hexDigits (n : Nat) : String := String.ofList (Nat.toDigits 16 n)

/-- The digits of `n` after `0x`. -/
def hexText (n : Nat) : String := "0x" ++ hexDigits n

/-- The word after `0x`. -/
def hex (w : Word) : String := hexText w.toNat

/-- A signed word after `0x`, in two's complement. -/
def hexSigned (i : Int64) : String := hex i.toUInt64

/-- At least `count` characters of `text`, filled up on the left. -/
def padLeft (count : Nat) (fill : Char) (text : String) : String :=
  String.ofList (List.replicate (count - text.length) fill) ++ text

/-- At least `count` characters of `text`, filled up with blanks on the right. -/
def padRight (count : Nat) (text : String) : String :=
  text ++ String.ofList (List.replicate (count - text.length) ' ')

/-- The word after `0x`, with at least eight digits. -/
def hexEight (w : Word) : String := "0x" ++ padLeft 8 '0' (hexDigits w.toNat)

/-- The value of a hexadecimal digit, of either case. -/
def hexValue? (c : Char) : Option Nat :=
  if '0' ≤ c ∧ c ≤ '9' then some (c.toNat - '0'.toNat)
  else if 'a' ≤ c ∧ c ≤ 'f' then some (c.toNat - 'a'.toNat + 10)
  else if 'A' ≤ c ∧ c ≤ 'F' then some (c.toNat - 'A'.toNat + 10)
  else none

/-- The bytes that a text of two digits per byte denotes. -/
def bytesOfHex? : List Char → Option (List UInt8)
  | [] => some []
  | [_] => none
  | a :: b :: rest => do
    let high ← hexValue? a
    let low ← hexValue? b
    let bytes ← bytesOfHex? rest
    return UInt8.ofNat (16 * high + low) :: bytes

/-- Two digits per byte. -/
def hexOfBytes (bytes : List UInt8) : String :=
  String.join (bytes.map fun b => padLeft 2 '0' (hexDigits b.toNat))

end ClassRecovery
