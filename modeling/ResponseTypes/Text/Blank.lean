/-!
# Blank characters, trimming and lines

Type references, descriptions and generated code are all cut at blank characters and at line
breaks.  A character is *blank* when it has the Unicode property `White_Space`; this is a wider
class than the ASCII blanks, since a description may well hold a no-break space.

## What is here

* `Text.isBlank` — the property, as a table of ranges.
* `Text.dropBlanks`, `Text.trimEndChars`, `Text.trimChars` — trimming a list of characters;
  `Text.trim` — a string.
* `Text.lines` — the lines of a text: a line ends before `\n` or `\r\n`, and a text that ends with
  a line break has no empty last line.
-/

set_option autoImplicit false

namespace ResponseTypes
namespace Text

/-! ## Blank characters -/

/-- The ranges of characters that have the property `White_Space`. -/
def blankRanges : List (Nat × Nat) :=
  [(0x09, 0x0D), (0x20, 0x20), (0x85, 0x85), (0xA0, 0xA0), (0x1680, 0x1680), (0x2000, 0x200A),
    (0x2028, 0x2029), (0x202F, 0x202F), (0x205F, 0x205F), (0x3000, 0x3000)]

/-- A character is blank when it lies in one of the ranges of `White_Space`. -/
def isBlank (c : Char) : Bool :=
  blankRanges.any fun r => r.1 ≤ c.toNat && c.toNat ≤ r.2

/-! ## Trimming -/

/-- The text without the blanks it starts with. -/
def dropBlanks (cs : List Char) : List Char :=
  cs.dropWhile isBlank

/-- The text without the blanks it ends with. -/
def trimEndChars (cs : List Char) : List Char :=
  (dropBlanks cs.reverse).reverse

/-- The text without the blanks around it. -/
def trimChars (cs : List Char) : List Char :=
  trimEndChars (dropBlanks cs)

/-- The text without the blanks around it. -/
def trim (s : String) : String :=
  String.ofList (trimChars s.toList)

/-- A text is blank when all of its characters are. -/
def allBlank (cs : List Char) : Bool :=
  cs.all isBlank

/-! ## Lines -/

/-- The lines of a list of characters.  A line ends before `\n` or `\r\n`; what follows the last
line break is a line only if it is not empty. -/
def linesOfChars : List Char → List (List Char)
  | [] => []
  | '\n' :: cs => [] :: linesOfChars cs
  | '\r' :: '\n' :: cs => [] :: linesOfChars cs
  | c :: cs =>
    match linesOfChars cs with
    | [] => [[c]]
    | l :: ls => (c :: l) :: ls

/-- The lines of a text. -/
def lines (s : String) : List String :=
  (linesOfChars s.toList).map String.ofList

end Text
end ResponseTypes
