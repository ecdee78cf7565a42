import ResponseTypes.Json.Value

/-!
# Reading JSON numbers

A number is read in two steps: its grammar is split off the text, and its digits are turned into a
value.  An integer that fits 64 bits stays an integer; any other number becomes a double, computed
from a significand of 64 bits and a power of ten by one multiplication or division.  Digits beyond
the significand are dropped, and a double that would be infinite is a fault of the number.

A decoder that skips the number does not ask for its value, and takes a number that is cut short at
the end of the text for a malformed one.

## What is here

* `Json.Numeral` — the digits of a number.
* `Json.scanNumeral` — splits a numeral off a text.
* `Json.Numeral.value` — the number a numeral denotes.
* `Json.scanNumber` — both together.
-/

set_option autoImplicit false

namespace ResponseTypes
namespace Json

/-! ## Numerals -/

/-- The parts of a number: its sign, the digits before and after the point, and the exponent with
its sign.  A part that is missing is `none`. -/
structure Numeral where
  isNegative : Bool
  whole : List Nat
  fraction? : Option (List Nat)
  exponent? : Option (Bool × List Nat)
deriving DecidableEq, Repr

/-- The value of a decimal digit. -/
def digit? (c : Char) : Option Nat :=
  if '0' ≤ c ∧ c ≤ '9' then some (c.toNat - '0'.toNat) else none

/-- The digits a text starts with, and the rest of the text. -/
def scanDigits : List Char → List Nat × List Char
  | [] => ([], [])
  | c :: cs =>
    match digit? c with
    | some d =>
      let (ds, rest) := scanDigits cs
      (d :: ds, rest)
    | none => ([], c :: cs)

/-- The fault of a numeral that lacks a digit, depending on what follows. -/
def missingDigit : List Char → Fault
  | [] => .endOfText
  | _ :: _ => .malformed

/-- Reads the exponent of a numeral, if there is one. -/
def scanExponent (cs : List Char) : Except Fault (Option (Bool × List Nat) × List Char) :=
  match cs with
  | c :: rest =>
    if c = 'e' ∨ c = 'E' then
      let (negative, rest) :=
        match rest with
        | '+' :: r => (false, r)
        | '-' :: r => (true, r)
        | r => (false, r)
      match scanDigits rest with
      | ([], rest) => .error (missingDigit rest)
      | (ds, rest) => .ok (some (negative, ds), rest)
    else .ok (none, cs)
  | [] => .ok (none, cs)

/-- Reads the fraction of a numeral, if there is one. -/
def scanFraction (cs : List Char) : Except Fault (Option (List Nat) × List Char) :=
  match cs with
  | '.' :: rest =>
    match scanDigits rest with
    | ([], rest) => .error (missingDigit rest)
    | (ds, rest) => .ok (some ds, rest)
  | _ => .ok (none, cs)

/-- Splits the numeral after a sign off a text.  The digits before the point are a single zero or
start with another digit. -/
def scanNumeral (isNegative : Bool) (cs : List Char) : Except Fault (Numeral × List Char) :=
  match scanDigits cs with
  | ([], rest) => .error (missingDigit rest)
  | (0 :: _ :: _, _) => .error .malformed
  | (whole, rest) => do
    let (fraction?, rest) ← scanFraction rest
    let (exponent?, rest) ← scanExponent rest
    return (⟨isNegative, whole, fraction?, exponent?⟩, rest)

/-! ## Values -/

/-- The least number that does not fit the significand. -/
def significandLimit : Nat := Nat.pow 2 64

/-- Adds digits to a significand as long as it fits; the digits that are left did not. -/
def gather (significand : Nat) : List Nat → Nat × List Nat
  | [] => (significand, [])
  | d :: ds =>
    if significand * 10 + d < significandLimit then gather (significand * 10 + d) ds
    else (significand, d :: ds)

/-- The double nearest to a significand. -/
def significandDouble (significand : Nat) : Float :=
  significand.toUInt64.toFloat

/-- The double nearest to a power of ten that is not too large for one. -/
def powerOfTen (k : Nat) : Float :=
  Float.ofScientific 1 false k

/-- A double divided by a power of ten, in steps of at most `10 ^ 308`. -/
def scaleDown (f : Float) (k : Nat) : Float :=
  if k ≤ 308 then f / powerOfTen k
  else if f == 0.0 then f
  else scaleDown (f / powerOfTen 308) (k - 308)
termination_by k

/-- A significand times a power of ten as a double, if that is finite. -/
def scale? (significand : Nat) (exponent : Int) : Option Float :=
  let f := significandDouble significand
  if exponent < 0 then some (scaleDown f (-exponent).toNat)
  else if exponent ≤ 308 then
    let g := f * powerOfTen exponent.toNat
    if g.isInf then none else some g
  else if f == 0.0 then some f
  else none

/-- The number a decimal digit sequence denotes. -/
def natOfDigits (ds : List Nat) : Nat :=
  ds.foldl (fun n d => n * 10 + d) 0

namespace Numeral

/-- A double with a sign. -/
def signed (x : Numeral) (f : Float) : Number :=
  .double (if x.isNegative then (-f).toBits else f.toBits)

/-- The double a numeral denotes: significand and power of ten, or a fault when it is too large. -/
def double (x : Numeral) : Except Fault Number :=
  let (s, dropped) := gather 0 x.whole
  let (s, kept) :=
    match x.fraction? with
    | none => (s, 0)
    | some ds =>
      let (s', left) := gather s ds
      (s', ds.length - left.length)
  let start : Int := (dropped.length : Int) - (kept : Int)
  let scaled :=
    match x.exponent? with
    | none => scale? s start
    | some (negative, ds) =>
      let e := natOfDigits ds
      if e < Nat.pow 2 31 then scale? s (if negative then start - e else start + e)
      else if negative || s == 0 then some 0.0
      else none
  match scaled with
  | some f => .ok (x.signed f)
  | none => .error .malformed

/-- The number a numeral denotes. -/
def value (x : Numeral) : Except Fault Number :=
  match x.fraction?, x.exponent? with
  | none, none =>
    let n := natOfDigits x.whole
    if x.isNegative then
      if 0 < n ∧ n ≤ Nat.pow 2 63 then .ok (.negative n) else x.double
    else if n < significandLimit then .ok (.natural n)
    else x.double
  | _, _ => x.double

end Numeral

/-- Reads the number after a sign: the leaf it makes, and the rest of the text.  For what follows, a
numeral that is cut short counts as malformed. -/
def scanNumber (isNegative : Bool) (cs : List Char) : Leaf Number × Except Fault (List Char) :=
  match scanNumeral isNegative cs with
  | .error f => (.fails f, .error .malformed)
  | .ok (x, rest) =>
    match x.value with
    | .ok n => (.holds n, .ok rest)
    | .error f => (.fails f, .ok rest)

end Json
end ResponseTypes
