import ResponseTypes.Decimal.Shortest
import ResponseTypes.Json.Value

/-!
# Writing JSON text

A value is written on one line without blanks.  In a string only the quote, the backslash and the
control characters are escaped, the common ones by a letter.  What the reader makes of the text of a
value free of faults is the value again; a leaf that holds a fault has no text of its own and is
written as `null`, or as the empty string where it is a key.

## What is here

* `Json.escapedChar` — the written form of one character of a string.
* `Json.Value.chars`, `Json.Items.chars`, `Json.Members.chars` — values as characters.
* `Json.Value.write` — a value as a text.
-/

set_option autoImplicit false

namespace ResponseTypes
namespace Json

/-! ## Strings -/

/-- The hexadecimal digit of a number below sixteen. -/
def hexDigit (n : Nat) : Char :=
  if n < 10 then Char.ofNat ('0'.toNat + n) else Char.ofNat ('a'.toNat + (n - 10))

/-- The written form of one character of a string. -/
def escapedChar (c : Char) : List Char :=
  if c = '"' then ['\\', '"']
  else if c = '\\' then ['\\', '\\']
  else if c = '\x08' then ['\\', 'b']
  else if c = '\x0c' then ['\\', 'f']
  else if c = '\n' then ['\\', 'n']
  else if c = '\r' then ['\\', 'r']
  else if c = '\t' then ['\\', 't']
  else if c.toNat < 0x20 then
    ['\\', 'u', '0', '0', hexDigit (c.toNat / 16), hexDigit (c.toNat % 16)]
  else [c]

/-- A string between quotes. -/
def stringChars (s : String) : List Char :=
  '"' :: s.toList.flatMap escapedChar ++ ['"']

/-! ## Values -/

/-- A number as characters. -/
def Number.chars : Number → List Char
  | .natural n => Nat.toDigits 10 n
  | .negative n => '-' :: Nat.toDigits 10 n
  | .double bits => (Decimal.textOfBits bits).toList

/-- The characters of `null`. -/
def nullChars : List Char :=
  ['n', 'u', 'l', 'l']

mutual

/-- A value as characters. -/
def Value.chars : Value → List Char
  | .null => nullChars
  | .bool true => ['t', 'r', 'u', 'e']
  | .bool false => ['f', 'a', 'l', 's', 'e']
  | .number (.holds n) => n.chars
  | .number (.fails _) => nullChars
  | .string (.holds s) => stringChars s
  | .string (.fails _) => nullChars
  | .array items => '[' :: items.chars []
  | .object members => '\x7b' :: members.chars []
  | .word _ => nullChars
  | .absent _ => nullChars

/-- The items of an array, each behind a separator, of which the first one is given, and the closing
bracket. -/
def Items.chars : Items → List Char → List Char
  | .done _, _ => [']']
  | .item v rest, separator => separator ++ (v.chars ++ rest.chars [','])

/-- The members of an object, each behind a separator, of which the first one is given, and the
closing brace. -/
def Members.chars : Members → List Char → List Char
  | .done _, _ => ['\x7d']
  | .member (.holds key) v rest, separator =>
    separator ++ (stringChars key ++ ':' :: (v.chars ++ rest.chars [',']))
  | .member (.fails _) v rest, separator =>
    separator ++ (stringChars "" ++ ':' :: (v.chars ++ rest.chars [',']))

end

/-- A value as a text. -/
def Value.write (v : Value) : String :=
  String.ofList v.chars

end Json
end ResponseTypes
