/-!
# The shortest decimal text of a binary floating point number

A message that reports a floating point number shows it with as few digits as name it: of all
decimals that round to the number, those on the coarsest decimal grid are the shortest, and the one
nearest to the number is taken.  Everything here is arithmetic on natural numbers; the number itself
enters through its bits.

## What is here

* `Decimal.Binary` — a number `mantissa * 2 ^ exponent`, together with the fact whether the next
  smaller number is only half as far away as the next larger one.
* `Decimal.Binary.gridPoint?` — a point of the grid of multiples of `10 ^ p` that rounds to the
  number.
* `Decimal.Binary.shortest` — the point on the coarsest grid that has one.
* `Decimal.positional`, `Decimal.scientific` — a decimal without and with an exponent, and
  `Decimal.isWrittenOut` — which of the two is used.
* `Decimal.textOfBits` — the text of a finite double.
-/

set_option autoImplicit false

namespace ResponseTypes
namespace Decimal

/-! ## Binary numbers and their neighbourhoods -/

/-- The positive number `mantissa * 2 ^ exponent`.  `lowEdge` says that the mantissa is the least
one of its exponent, so that the next smaller number lies on a grid twice as fine. -/
structure Binary where
  mantissa : Nat
  exponent : Int
  lowEdge : Bool
deriving DecidableEq, Repr

/-- The absolute value of the double with these bits. -/
def Binary.ofBits (bits : UInt64) : Binary :=
  let field := (bits >>> 52).toNat % 2048
  let fraction := bits.toNat % Nat.pow 2 52
  if field = 0 then ⟨fraction, -1074, false⟩
  else ⟨fraction + Nat.pow 2 52, (field : Int) - 1075, fraction == 0 && 1 < field⟩

namespace Binary

/-- The number, the least and the greatest real that may round to it, as numerators over one
denominator: `(value, low, high, denominator)`. -/
def interval (b : Binary) : Nat × Nat × Nat × Nat :=
  let low := 4 * b.mantissa - (if b.lowEdge then 1 else 2)
  let e := b.exponent - 2
  let up := Nat.pow 2 e.toNat
  (4 * b.mantissa * up, low * up, (4 * b.mantissa + 2) * up, Nat.pow 2 (-e).toNat)

/-- The multiple of `10 ^ p` nearest to the number among those that round to it, divided by
`10 ^ p`.  An end of the interval rounds to the number iff its mantissa is even; of two points
equally near the even one is taken. -/
def gridPoint? (b : Binary) (p : Int) : Option Nat :=
  let (value, low, high, den) := b.interval
  let shift := Nat.pow 10 (-p).toNat
  let unit := den * Nat.pow 10 p.toNat
  let inside (d : Nat) : Bool :=
    if b.mantissa % 2 = 0 then low * shift ≤ d * unit && d * unit ≤ high * shift
    else low * shift < d * unit && d * unit < high * shift
  let d := value * shift / unit
  let below := value * shift - d * unit
  let above := (d + 1) * unit - value * shift
  match inside d, inside (d + 1) with
  | true, true =>
    if below < above ∨ (below = above ∧ d % 2 = 0) then some d else some (d + 1)
  | true, false => some d
  | false, true => some (d + 1)
  | false, false => none

/-- The first grid from `10 ^ p` downwards that has a point rounding to the number, within a number
of steps. -/
def coarsest (b : Binary) : Nat → Int → Nat × Int
  | 0, p => (0, p)
  | steps + 1, p =>
    match b.gridPoint? p with
    | some d => (d, p)
    | none => b.coarsest steps (p - 1)

/-- The shortest decimal `digits * 10 ^ exponent` that rounds to the number.  A double is less than
`10 ^ 309` and has at most 1074 binary, hence decimal, places. -/
def shortest (b : Binary) : Nat × Int :=
  if b.mantissa = 0 then (0, 0) else b.coarsest 1400 309

end Binary

/-! ## Text -/

/-- Digits with a power of ten behind them written out, always with a decimal point and a digit on
both sides of it. -/
def positional (ds : List Char) (exponent : Int) : List Char :=
  if 0 ≤ exponent then ds ++ List.replicate exponent.toNat '0' ++ ['.', '0']
  else
    let places := (-exponent).toNat
    let padded := List.replicate (places + 1 - ds.length) '0' ++ ds
    let whole := padded.length - places
    padded.take whole ++ '.' :: padded.drop whole

/-- Digits with a decimal point behind the first one, if there are more, and the exponent of that
first digit, always with its sign. -/
def scientific (ds : List Char) (exponent : Int) : List Char :=
  let significand :=
    match ds with
    | d :: e :: rest => d :: '.' :: e :: rest
    | _ => ds
  let sign := if exponent < 0 then '-' else '+'
  significand ++ 'e' :: sign :: Nat.toDigits 10 exponent.natAbs

/-- Whether a decimal is written out without an exponent.  `point` is the number of digits before
its decimal point; it is zero or less if zeros stand between the point and the first digit.  There
may be sixteen digits before the point, and four zeros behind it. -/
def isWrittenOut (point : Int) : Bool :=
  -5 < point && point ≤ 16

/-- The text of the decimal `digits * 10 ^ exponent`. -/
def text (digits : Nat) (exponent : Int) : String :=
  let ds := Nat.toDigits 10 digits
  let point := ds.length + exponent
  String.ofList (if isWrittenOut point then positional ds exponent else scientific ds (point - 1))

/-- The text of the finite double with these bits. -/
def textOfBits (bits : UInt64) : String :=
  let (digits, exponent) := (Binary.ofBits bits).shortest
  (if bits >>> 63 = 1 then "-" else "") ++ text digits exponent

end Decimal
end ResponseTypes
