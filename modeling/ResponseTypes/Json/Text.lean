import ResponseTypes.Json.Value

/-!
# Reading JSON strings

A string is scanned character by character up to its closing quote.  An escape `\uXXXX` gives a
UTF-16 unit; two of them may form a surrogate pair.  A unit that is half of a pair without its other
half is a fault of the string, but not of the text: a decoder that skips the string passes over it.

## What is here

* `Json.hexUnit` — the four hexadecimal digits of an escape.
* `Json.StringScan` — what has been read of a string.
* `Json.scanString` — the leaf a string makes, and the rest of the text.
-/

set_option autoImplicit false

namespace ResponseTypes
namespace Json

/-! ## Escapes -/

/-- The value of a hexadecimal digit. -/
def hexDigit? (c : Char) : Option Nat :=
  if '0' ≤ c ∧ c ≤ '9' then some (c.toNat - '0'.toNat)
  else if 'a' ≤ c ∧ c ≤ 'f' then some (c.toNat - 'a'.toNat + 10)
  else if 'A' ≤ c ∧ c ≤ 'F' then some (c.toNat - 'A'.toNat + 10)
  else none

/-- The unit written by four hexadecimal digits. -/
def hexUnit? (a b c d : Char) : Option Nat := do
  let a ← hexDigit? a
  let b ← hexDigit? b
  let c ← hexDigit? c
  let d ← hexDigit? d
  return ((a * 16 + b) * 16 + c) * 16 + d

/-- The fault of an escape whose four digits cannot be read: the text ends too early if it has fewer
than four bytes left, whatever they are. -/
def hexFault (cs : List Char) : Fault :=
  if (cs.take 4).foldl (fun n c => n + c.utf8Size) 0 < 4 then .endOfText else .malformed

/-- The character an escape letter stands for. -/
def escapeLetter? (c : Char) : Option Char :=
  match c with
  | '"' => some '"'
  | '\\' => some '\\'
  | '/' => some '/'
  | 'b' => some '\x08'
  | 'f' => some '\x0c'
  | 'n' => some '\n'
  | 'r' => some '\r'
  | 't' => some '\t'
  | _ => none

/-! ## Strings -/

/-- What has been read of a string: its characters in reverse, whether half a surrogate pair has
been met, and a leading half that still waits for its other half. -/
structure StringScan where
  reversed : List Char
  hasHalf : Bool
  leading? : Option Nat
deriving DecidableEq, Repr

namespace StringScan

/-- Nothing read yet. -/
def start : StringScan :=
  ⟨[], false, none⟩

/-- A character was read.  A leading half before it stays alone. -/
def character (x : StringScan) (c : Char) : StringScan :=
  ⟨c :: x.reversed, x.hasHalf || x.leading?.isSome, none⟩

/-- A UTF-16 unit was read by an escape. -/
def unit (x : StringScan) (u : Nat) : StringScan :=
  if 0xDC00 ≤ u ∧ u ≤ 0xDFFF then
    match x.leading? with
    | some h =>
      ⟨Char.ofNat (0x10000 + (h - 0xD800) * 0x400 + (u - 0xDC00)) :: x.reversed, x.hasHalf, none⟩
    | none => ⟨x.reversed, true, none⟩
  else if 0xD800 ≤ u ∧ u ≤ 0xDBFF then
    ⟨x.reversed, x.hasHalf || x.leading?.isSome, some u⟩
  else x.character (Char.ofNat u)

/-- The leaf of a string that was closed. -/
def finish (x : StringScan) : Leaf String :=
  if x.hasHalf || x.leading?.isSome then .fails .malformed
  else .holds (String.ofList x.reversed.reverse)

/-- The leaf of a string in which a fault was met.  Half a surrogate pair before it comes first. -/
def fail (x : StringScan) (f : Fault) : Leaf String :=
  .fails (if x.hasHalf then .malformed else f)

end StringScan

/-- Reads a string after its opening quote: the leaf it makes, and the rest of the text after the
closing quote or the fault that ended the reading. -/
def scanString (x : StringScan) : List Char → Leaf String × Except Fault (List Char)
  | [] => (x.fail .endOfText, .error .endOfText)
  | '"' :: cs => (x.finish, .ok cs)
  | ['\\'] => (x.fail .endOfText, .error .endOfText)
  | '\\' :: 'u' :: a :: b :: c :: d :: cs =>
    match hexUnit? a b c d with
    | some u => scanString (x.unit u) cs
    | none =>
      let f := hexFault (a :: b :: c :: d :: cs)
      (x.fail f, .error f)
  | '\\' :: 'u' :: cs => (x.fail (hexFault cs), .error (hexFault cs))
  | '\\' :: c :: cs =>
    match escapeLetter? c with
    | some e => scanString (x.character e) cs
    | none => (x.fail .malformed, .error .malformed)
  | c :: cs =>
    if c.toNat < 0x20 then (x.fail .malformed, .error .malformed)
    else scanString (x.character c) cs

end Json
end ResponseTypes
