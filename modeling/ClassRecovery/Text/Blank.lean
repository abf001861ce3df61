/-
  White space, by the Unicode property of that name, and the words between it.
-/

namespace ClassRecovery

/-- Whether the character is white space. -/
def isBlank (c : Char) : Bool :=
  let n := c.toNat
  (9 ≤ n && n ≤ 13) || n = 32 || n = 0x85 || n = 0xa0 || n = 0x1680 ||
    (0x2000 ≤ n && n ≤ 0x200a) || n = 0x2028 || n = 0x2029 || n = 0x202f || n = 0x205f ||
    n = 0x3000

/-- The text without the white space at its end. -/
def trimEnd (text : String) : String :=
  String.ofList (text.toList.reverse.dropWhile isBlank).reverse

/-- The maximal runs of characters that are no white space. -/
def words (text : String) : List String :=
  ((text.toList.splitOnP isBlank).filter (!·.isEmpty)).map String.ofList

/-- The words of a text with one space between them. -/
def normalizeBlanks (text : String) : String :=
  " ".intercalate (words text)

/-- The text with its capital ASCII letters made small. -/
def lowerAscii (text : String) : String := text.map Char.toLower

end ClassRecovery
