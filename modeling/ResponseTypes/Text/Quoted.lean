import ResponseTypes.Text.Unprintable

/-!
# Quoted text in messages

A message that reports a text puts it between double quotes and escapes what would be misread
there: the quote itself, the backslash, the common control characters by a letter, and every other
character that cannot be printed by its number in hexadecimal.

## What is here

* `Text.escapeChar` — the written form of one character.
* `Text.quote` — a whole text between quotes.
-/

set_option autoImplicit false

namespace ResponseTypes
namespace Text

/-- The written form of one character inside quotes. -/
def escapeChar (c : Char) : String :=
  if c = '"' then "\\\""
  else if c = '\\' then "\\\\"
  else if c = '\n' then "\\n"
  else if c = '\r' then "\\r"
  else if c = '\t' then "\\t"
  else if c.toNat = 0 then "\\0"
  else if c = ' ' then " "
  else if isUnprintable c then
    "\\u\x7b" ++ String.ofList (Nat.toDigits 16 c.toNat) ++ "\x7d"
  else String.singleton c

/-- A text between double quotes, with every character in its written form. -/
def quote (s : String) : String :=
  "\"" ++ String.join (s.toList.map escapeChar) ++ "\""

end Text
end ResponseTypes
