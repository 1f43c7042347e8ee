import Forth.Number.Binary64

/-!
# The shortest decimal text of a floating-point number

A value is written with the fewest digits that read back as the same value. A grid of step
`10 ^ k` has two points next to the value; the coarsest grid on which one of them reads
back gives the digits. Of two such points the nearer one is taken, and the upper one of two
equally near.
-/

namespace Forth.Binary64

/-- A non-negative decimal number, `digits * 10 ^ exponent`. -/
structure Decimal where
  digits : Nat
  exponent : Int
  deriving DecidableEq

/-- The magnitude of a finite value, divided by `10 ^ k`, as a quotient of natural numbers. -/
def scaled (x : Binary64) (k : Int) : Nat × Nat :=
  let (m, e) := x.magnitude
  ((m * Nat.pow 10 (-k).toNat) <<< (e - 1074), (Nat.pow 10 k.toNat) <<< (1074 - e))

/-- Does the decimal number denote the magnitude of `x`? -/
def readsBack (x : Binary64) (d : Decimal) : Bool :=
  (ofDecimal d.digits d.exponent).magnitude == x.magnitude

/-- The point of the grid of step `10 ^ k` that stands for `x`, if one does. -/
def onGrid? (x : Binary64) (k : Int) : Option Decimal :=
  let (num, den) := x.scaled k
  let lower : Decimal := ⟨num / den, k⟩
  let upper : Decimal := ⟨num / den + 1, k⟩
  match x.readsBack lower, x.readsBack upper with
  | true, true => some (if 2 * (num % den) < den then lower else upper)
  | true, false => some lower
  | false, true => some upper
  | false, false => none

/-- The exponents of the grids that are tried, the coarsest first. The least positive value
stands on the finest of them. -/
def gridExponents : List Int :=
  (List.range 634).map fun (i : Nat) => 309 - (i : Int)

/-- The shortest decimal number for the magnitude of a finite value. -/
def shortest (x : Binary64) : Decimal :=
  if x.magnitude.1 = 0 then ⟨0, 0⟩
  else (gridExponents.findSome? x.onGrid?).getD ⟨0, 0⟩

/-- The digits in positional notation, with at least one digit on either side of the point. -/
def Decimal.positional (d : Decimal) : String :=
  let ds := (toString d.digits).toList
  let padded := List.replicate ((-d.exponent).toNat + 1 - ds.length) '0' ++ ds
  let whole := padded.length - (-d.exponent).toNat
  let fraction := padded.drop whole
  String.ofList (padded.take whole ++ List.replicate d.exponent.toNat '0' ++ ['.'] ++
    if fraction.isEmpty then ['0'] else fraction)

/-- The text of any value. -/
def text (x : Binary64) : String :=
  if x.isNaN then "NaN"
  else
    let sign := if x.isNegative then "-" else ""
    if x.isFinite then sign ++ x.shortest.positional else sign ++ "inf"

end Forth.Binary64
