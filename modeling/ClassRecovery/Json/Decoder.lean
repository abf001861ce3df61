/-
  Reading typed values out of JSON values, and writing them.

  A record is an object: members with unknown keys are skipped, a key that the record knows may
  occur only once.  `null` stands for an absent optional value and for nothing else.
-/
import ClassRecovery.Json.Value
import ClassRecovery.Word

namespace ClassRecovery.Json

/-! ## Reading scalars -/

def bool? : Json → Option Bool
  | bool b => some b
  | _ => none

def string? : Json → Option String
  | str s => some s
  | _ => none

def isNull : Json → Bool
  | null => true
  | _ => false

/-- Whether the value says nothing: `null`, or an object without members. -/
def isVoid : Json → Bool
  | null | obj [] => true
  | _ => false

/-- An integer within the given bounds. -/
def intWithin? (low high : Int) : Json → Option Int
  | int n => if low ≤ n ∧ n ≤ high then some n else none
  | _ => none

def nat? (high : Nat) (j : Json) : Option Nat := (j.intWithin? 0 high).map Int.toNat

def word? (j : Json) : Option Word := (j.nat? (UInt64.size - 1)).map UInt64.ofNat

def word32? (j : Json) : Option UInt32 := (j.nat? (UInt32.size - 1)).map UInt32.ofNat

def word16? (j : Json) : Option UInt16 := (j.nat? (UInt16.size - 1)).map UInt16.ofNat

def byte? (j : Json) : Option UInt8 := (j.nat? (UInt8.size - 1)).map UInt8.ofNat

def signed? (j : Json) : Option Int64 :=
  (j.intWithin? (-0x8000000000000000) 0x7FFFFFFFFFFFFFFF).map Int64.ofInt

/-- A number of either kind as a double. -/
def float? : Json → Option Float
  | float x => some x
  | int n => some (if 0 ≤ n then (UInt64.ofNat n.toNat).toFloat else (Int64.ofInt n).toFloat)
  | _ => none

/-! ## Reading containers -/

/-- Every item of an array. -/
def list? {α : Type} (item? : Json → Option α) : Json → Option (List α)
  | arr items => items.mapM item?
  | _ => none

/-- An array of two items. -/
def pair? {α β : Type} (first? : Json → Option α) (second? : Json → Option β) :
    Json → Option (α × β)
  | arr [a, b] => do return (← first? a, ← second? b)
  | _ => none

/-- A value, or `null` for none. -/
def nullable? {α : Type} (value? : Json → Option α) : Json → Option (Option α)
  | null => some none
  | j => (value? j).map some

/-- The members of an object. -/
abbrev Members := List (String × Json)

def members? : Json → Option Members
  | obj ms => some ms
  | _ => none

/-- The member of the given key; a key that occurs twice cannot be read. -/
def Members.find? (ms : Members) (key : String) : Option (Option Json) :=
  match ms.filter fun m => m.1 = key with
  | [] => some none
  | [m] => some (some m.2)
  | _ => none

/-- The value of a member that has to be there. -/
def Members.required {α : Type} (ms : Members) (key : String) (value? : Json → Option α) :
    Option α := do
  match ← ms.find? key with
  | some j => value? j
  | none => none

/-- The value of a member, or the default where it is missing. -/
def Members.orElse {α : Type} (ms : Members) (key : String) (value? : Json → Option α)
    (default : α) : Option α := do
  match ← ms.find? key with
  | some j => value? j
  | none => some default

/-- The value of a member that may be missing or `null`. -/
def Members.optional {α : Type} (ms : Members) (key : String) (value? : Json → Option α) :
    Option (Option α) :=
  ms.orElse key (nullable? value?) none

/-- A variant: its name, and the value that belongs to it. -/
def variant? : Json → Option (String × Option Json)
  | str name => some (name, none)
  | obj [(name, j)] => some (name, some j)
  | _ => none

/-- A variant without a value, looked up by its name. -/
def name? {α : Type} (names : List (String × α)) (j : Json) : Option α := do
  let (name, value) ← j.variant?
  match value with
  | none => names.lookup name
  | some null => names.lookup name
  | some _ => none

/-! ## Writing -/

def ofWord (w : Word) : Json := int w.toNat

def ofNat (n : Nat) : Json := int n

def ofSigned (i : Int64) : Json := int i.toInt

/-- Writes a double; one that is no number is written as `null`. -/
def ofFloat (x : Float) : Json := if x.isFinite then float x else null

def ofOption {α : Type} (write : α → Json) : Option α → Json
  | none => null
  | some a => write a

def ofList {α : Type} (write : α → Json) (l : List α) : Json := arr (l.map write)

end ClassRecovery.Json
