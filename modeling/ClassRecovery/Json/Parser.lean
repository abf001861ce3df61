/-
  Reading JSON text.

  The reader accepts the standard grammar and nothing around the value but white space.
  What is well-formed but denotes nothing becomes `Json.unreadable`.
-/
import ClassRecovery.Json.Number
import ClassRecovery.Text.Hex

namespace ClassRecovery.Json

namespace Reader

/-- The white space of JSON. -/
def isSpace (c : Char) : Bool := c = ' ' || c = '\n' || c = '\t' || c = '\r'

def skipSpace (cs : List Char) : List Char := cs.dropWhile isSpace

/-- The deepest nesting of containers that can be read. -/
def maxDepth : Nat := 127

/-! ## Numbers -/

def isDigit (c : Char) : Bool := '0' ≤ c && c ≤ '9'

/-- The digits at the front of a text, and the rest. -/
def spanDigits (cs : List Char) : List Nat × List Char :=
  ((cs.takeWhile isDigit).map fun c => c.toNat - 48, cs.dropWhile isDigit)

/-- The fraction at the front of a text, if a point stands there. -/
def fraction? : List Char → Option (Option (List Nat) × List Char)
  | '.' :: rest =>
    let (digits, rest) := spanDigits rest
    if digits.isEmpty then none else some (some digits, rest)
  | cs => some (none, cs)

/-- The sign of an exponent: whether it is negative. -/
def exponentSign : List Char → Bool × List Char
  | '+' :: rest => (false, rest)
  | '-' :: rest => (true, rest)
  | cs => (false, cs)

/-- The exponent at the front of a text, if an `e` stands there. -/
def exponent? : List Char → Option (Option (Bool × List Nat) × List Char)
  | c :: rest =>
    if c = 'e' || c = 'E' then
      let (down, rest) := exponentSign rest
      let (digits, rest) := spanDigits rest
      if digits.isEmpty then none else some (some (down, digits), rest)
    else some (none, c :: rest)
  | [] => some (none, [])

/-- The number at the front of a text.  Its whole part has no leading zeros. -/
def number? (cs : List Char) : Option (Json × List Char) := do
  let (negative, cs) := match cs with
    | '-' :: rest => (true, rest)
    | cs => (false, cs)
  let (whole, cs) := spanDigits cs
  guard (!whole.isEmpty && (whole.length = 1 || whole.head? != some 0))
  let (fraction, cs) ← fraction? cs
  let (exponent, cs) ← exponent? cs
  return (Numeral.value ⟨negative, whole, fraction, exponent⟩, cs)

/-! ## Strings -/

/-- The number that four hexadecimal digits denote. -/
def unit? (a b c d : Char) : Option Nat := do
  return 4096 * (← hexValue? a) + 256 * (← hexValue? b) + 16 * (← hexValue? c) + (← hexValue? d)

/-- One step of a string literal: a character, or a 16-bit unit given by its number. -/
inductive Piece where
  | char (c : Char)
  | unit (n : Nat)

/-- The character that a letter after a backslash stands for. -/
def escaped? : Char → Option Char
  | '"' => some '"'
  | '\\' => some '\\'
  | '/' => some '/'
  | 'b' => some '\x08'
  | 'f' => some '\x0c'
  | 'n' => some '\n'
  | 'r' => some '\r'
  | 't' => some '\t'
  | _ => none

/-- The rest of a string literal, after its opening quote, and the text behind it.  `done`
    are the pieces before it, newest first. -/
def pieces? (done : List Piece) : List Char → Option (List Piece × List Char)
  | [] => none
  | '"' :: rest => some (done.reverse, rest)
  | '\\' :: 'u' :: a :: b :: c :: d :: rest =>
    match unit? a b c d with
    | some n => pieces? (.unit n :: done) rest
    | none => none
  | '\\' :: c :: rest =>
    match escaped? c with
    | some e => pieces? (.char e :: done) rest
    | none => none
  | c :: rest => if c.toNat < 32 then none else pieces? (.char c :: done) rest

/-- The characters of the pieces behind those in `done` (newest first), if every half of a
    surrogate pair has its other half. -/
def join? (done : List Char) : List Piece → Option (List Char)
  | [] => some done.reverse
  | .char c :: rest => join? (c :: done) rest
  | .unit n :: .unit m :: rest =>
    if 0xD800 ≤ n ∧ n ≤ 0xDBFF then
      if 0xDC00 ≤ m ∧ m ≤ 0xDFFF then
        join? (Char.ofNat (0x10000 + (n - 0xD800) * 0x400 + (m - 0xDC00)) :: done) rest
      else none
    else if 0xDC00 ≤ n ∧ n ≤ 0xDFFF then none
    else join? (Char.ofNat n :: done) (.unit m :: rest)
  | .unit n :: rest =>
    if 0xD800 ≤ n ∧ n ≤ 0xDFFF then none else join? (Char.ofNat n :: done) rest

/-- The string literal at the front of a text: its content, if it is whole. -/
def string? : List Char → Option (Option String × List Char)
  | '"' :: rest => do
    let (pieces, rest) ← pieces? [] rest
    return ((join? [] pieces).map String.ofList, rest)
  | _ => none

/-! ## Values -/

/-- The text behind the given word, if it starts with it. -/
def keyword? : List Char → List Char → Option (List Char)
  | [], cs => some cs
  | _ :: _, [] => none
  | w :: ws, c :: cs => if w = c then keyword? ws cs else none

mutual
/-- The value at the front of a text.  `depth` containers may still be nested; each
    step spends fuel. -/
def value? (depth : Nat) : Nat → List Char → Option (Json × List Char)
  | 0, _ => none
  | fuel + 1, cs =>
    match cs with
    | '[' :: rest =>
      let close (items : List Json) := if depth = 0 then unreadable else arr items
      match skipSpace rest with
      | ']' :: rest => some (close [], rest)
      | rest => (items? (depth - 1) fuel [] rest).map fun (items, rest) => (close items, rest)
    | '{' :: rest =>
      match skipSpace rest with
      | '}' :: rest => some (if depth = 0 then unreadable else obj [], rest)
      | rest => (members? (depth - 1) fuel true [] rest).map fun (whole, members, rest) =>
          (if depth = 0 || !whole then unreadable else obj members, rest)
    | '"' :: _ => (string? cs).map fun (s, rest) => (s.elim unreadable str, rest)
    | 'n' :: _ => (keyword? "null".toList cs).map fun rest => (null, rest)
    | 't' :: _ => (keyword? "true".toList cs).map fun rest => (bool true, rest)
    | 'f' :: _ => (keyword? "false".toList cs).map fun rest => (bool false, rest)
    | _ => number? cs

/-- The items of an array up to its end, before which `done` were read (newest first). -/
def items? (depth : Nat) : Nat → List Json → List Char → Option (List Json × List Char)
  | 0, _, _ => none
  | fuel + 1, done, cs =>
    match value? depth fuel (skipSpace cs) with
    | none => none
    | some (item, rest) =>
      match skipSpace rest with
      | ',' :: rest => items? depth fuel (item :: done) rest
      | ']' :: rest => some ((item :: done).reverse, rest)
      | _ => none

/-- The members of an object up to its end, before which `done` were read (newest first);
    `whole` tells whether all keys so far are whole. -/
def members? (depth : Nat) :
    Nat → Bool → List (String × Json) → List Char → Option (Bool × List (String × Json) × List Char)
  | 0, _, _, _ => none
  | fuel + 1, whole, done, cs =>
    match string? (skipSpace cs) with
    | none => none
    | some (key, rest) =>
      match skipSpace rest with
      | ':' :: rest =>
        match value? depth fuel (skipSpace rest) with
        | none => none
        | some (value, rest) =>
          let done := (key.getD "", value) :: done
          match skipSpace rest with
          | ',' :: rest => members? depth fuel (whole && key.isSome) done rest
          | '}' :: rest => some (whole && key.isSome, done.reverse, rest)
          | _ => none
      | _ => none
end

end Reader

/-- The value that a text denotes, if it holds exactly one. -/
def parse (text : String) : Option Json := do
  let cs := text.toList
  let (j, rest) ← Reader.value? Reader.maxDepth (cs.length + 1) (Reader.skipSpace cs)
  guard (Reader.skipSpace rest).isEmpty
  return j

end ClassRecovery.Json
