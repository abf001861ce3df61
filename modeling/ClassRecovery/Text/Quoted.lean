/-
  Text in double quotes, for messages.

  The quote, the backslash and the usual control characters are escaped by a letter,
  every other character without a printed form of its own by its number in braces.
-/
import ClassRecovery.Text.Hex
import ClassRecovery.Text.Printable

namespace ClassRecovery

/-- One character as quoted text spells it. -/
def quoteChar (c : Char) : String :=
  match c with
  | '"' => "\\\""
  | '\\' => "\\\\"
  | '\n' => "\\n"
  | '\r' => "\\r"
  | '\t' => "\\t"
  | '\x00' => "\\0"
  | c => if isPrintable c then c.toString else "\\u\x7b" ++ hexDigits c.toNat ++ "\x7d"

/-- The text in double quotes. -/
def quoted (text : String) : String :=
  "\"" ++ String.join (text.toList.map quoteChar) ++ "\""

end ClassRecovery
