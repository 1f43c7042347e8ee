/-!
# Floating-point numbers of 64 bits

A value is kept as its bit pattern: a sign bit, eleven bits of exponent and fifty-two bits
of fraction. `ofDecimal` rounds a decimal number to the nearest value, and of two equally
near ones to the one with the even fraction, in exact arithmetic on natural numbers.
-/

namespace Forth

structure Binary64 where
  bits : UInt64
  deriving DecidableEq

namespace Binary64

def infinity : Binary64 := ⟨0x7FF0000000000000⟩

def nan : Binary64 := ⟨0x7FF8000000000000⟩

def zero : Binary64 := ⟨0⟩

def negate (x : Binary64) : Binary64 := ⟨x.bits ^^^ 0x8000000000000000⟩

def isNegative (x : Binary64) : Bool := x.bits >>> 63 == 1

/-- The exponent bits, as they stand. -/
def exponentField (x : Binary64) : Nat := ((x.bits >>> 52) &&& 0x7FF).toNat

def fractionField (x : Binary64) : Nat := (x.bits &&& 0xFFFFFFFFFFFFF).toNat

def isFinite (x : Binary64) : Bool := x.exponentField != 0x7FF

def isNaN (x : Binary64) : Bool := !x.isFinite && x.fractionField != 0

/-- The magnitude of a finite value as `m * 2 ^ (e - 1074)`, in the form `(m, e)`. -/
def magnitude (x : Binary64) : Nat × Nat :=
  if x.exponentField = 0 then (x.fractionField, 0)
  else (0x10000000000000 + x.fractionField, x.exponentField - 1)

/-- The quotient rounded to the nearest natural number, a tie going to the even one. -/
def roundDiv (num den : Nat) : Nat :=
  let q := num / den
  let r := num % den
  if 2 * r < den then q
  else if den < 2 * r then q + 1
  else q + q % 2

/-- The nearest value to `num / den * 2 ^ (-1074)`, for a positive `den`. The quotient is
halved until it has at most 53 binary digits. The leading one of a normal value adds one to
the exponent bits, as does each halving and a carry out of the fraction, and a value that
carries past the largest finite one is infinity. -/
def ofQuotient (num den : Nat) : Binary64 :=
  let halvings := (num / den).log2 - 52
  let bits := halvings <<< 52 + roundDiv num (den <<< halvings)
  if infinity.bits.toNat ≤ bits then infinity else ⟨UInt64.ofNat bits⟩

/-- The nearest value to `m * 10 ^ e`. Exponents so large or so small that the answer is
infinity or zero for every `m` of that many digits are answered without arithmetic. -/
def ofDecimal (m : Nat) (e : Int) : Binary64 :=
  if m = 0 then zero
  else
    let top : Int := (Nat.log2 m / 4 : Nat) + e
    if 400 < top then infinity
    else if (Nat.log2 m / 3 : Nat) + e < -400 then zero
    else if 0 ≤ e then ofQuotient ((m * Nat.pow 10 e.toNat) <<< 1074) 1
    else ofQuotient (m <<< 1074) (Nat.pow 10 (-e).toNat)

end Binary64

end Forth
