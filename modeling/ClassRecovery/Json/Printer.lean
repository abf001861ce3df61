/-
  Writing JSON text, compact or with one member or item per line.

  How a double is written is a parameter: `Json.compact` and `Json.pretty` write it in decimal.
-/
import ClassRecovery.Json.Value
import ClassRecovery.Decimal.Text
import ClassRecovery.Text.Hex

namespace ClassRecovery.Json

/-- One character as it stands in a string literal. -/
def escapeChar (c : Char) : String :=
  match c with
  | '"' => "\\\""
  | '\\' => "\\\\"
  | '\n' => "\\n"
  | '\r' => "\\r"
  | '\t' => "\\t"
  | '\x08' => "\\b"
  | '\x0c' => "\\f"
  | c => if c.toNat < 32 then "\\u" ++ padLeft 4 '0' (hexDigits c.toNat) else c.toString

/-- Appends the string literal of a text. -/
def writeString (out : String) (s : String) : String :=
  (s.toList.foldl (fun out c => out ++ escapeChar c) (out.push '"')).push '"'

/-- The decimal text of a double; a double that is no number is written as `null`. -/
def decimalText (x : Float) : String :=
  if x.isFinite then floatText .json x else "null"

/-! ## Compact text -/

mutual
/-- Appends the compact text of a value. -/
def writeCompact (number : Float → String) (out : String) : Json → String
  | null => out ++ "null"
  | unreadable => out ++ "null"
  | bool b => out ++ (if b then "true" else "false")
  | int n => out ++ toString n
  | float x => out ++ number x
  | str s => writeString out s
  | arr items => (writeItems number (out.push '[') true items).push ']'
  | obj members => (writeMembers number (out.push '\x7b') true members).push '\x7d'

def writeItems (number : Float → String) (out : String) (first : Bool) : List Json → String
  | [] => out
  | item :: rest =>
    let out := if first then out else out.push ','
    writeItems number (writeCompact number out item) false rest

def writeMembers (number : Float → String) (out : String) (first : Bool) :
    List (String × Json) → String
  | [] => out
  | (key, value) :: rest =>
    let out := if first then out else out.push ','
    writeMembers number (writeCompact number ((writeString out key).push ':') value) false rest
end

/-- The value in one line without blanks, its doubles written by `number`. -/
def compactWith (number : Float → String) (j : Json) : String := writeCompact number "" j

/-- The value in one line without blanks. -/
def compact (j : Json) : String := compactWith decimalText j

/-! ## Indented text -/

/-- A line break and the indentation of the given depth. -/
def newline (out : String) (depth : Nat) : String :=
  out ++ "\n" ++ String.ofList (List.replicate (2 * depth) ' ')

mutual
/-- Appends the indented text of a value that stands at the given depth. -/
def writePretty (depth : Nat) (out : String) : Json → String
  | arr items =>
    if items.isEmpty then out ++ "[]"
    else (newline (prettyItems (depth + 1) (out.push '[') true items) depth).push ']'
  | obj members =>
    if members.isEmpty then out ++ "\x7b\x7d"
    else (newline (prettyMembers (depth + 1) (out.push '\x7b') true members) depth).push '\x7d'
  | j => writeCompact decimalText out j

def prettyItems (depth : Nat) (out : String) (first : Bool) : List Json → String
  | [] => out
  | item :: rest =>
    let out := newline (if first then out else out.push ',') depth
    prettyItems depth (writePretty depth out item) false rest

def prettyMembers (depth : Nat) (out : String) (first : Bool) : List (String × Json) → String
  | [] => out
  | (key, value) :: rest =>
    let out := newline (if first then out else out.push ',') depth
    prettyMembers depth (writePretty depth (writeString out key ++ ": ") value) false rest
end

/-- The value over several lines, indented by two blanks per level. -/
def pretty (j : Json) : String := writePretty 0 "" j

end ClassRecovery.Json
