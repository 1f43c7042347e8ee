/-!
# Decimal integers of fixed width

An integer is written as an optional sign followed by decimal digits. Reading goes from
left to right and stops at the first cause of failure: a character that is no digit, or
the first digit that takes the magnitude out of the range.

`magnitude` reads the digits and is shared by the signed and the unsigned reader, which
differ in the signs they admit and in the largest magnitude.
-/

namespace Forth.Decimal

/-- Why a text does not denote an integer of the wanted range. -/
inductive Fault where
  | empty
  | invalidDigit
  | aboveRange
  | belowRange
  deriving DecidableEq

def Fault.message : Fault → String
  | .empty => "cannot parse integer from empty string"
  | .invalidDigit => "invalid digit found in string"
  | .aboveRange => "number too large to fit in target type"
  | .belowRange => "number too small to fit in target type"

/-- The value of an ASCII digit. -/
def digit? (c : Char) : Option Nat :=
  if c.isDigit then some (c.toNat - '0'.toNat) else none

/-- Reads digits on to the number `n` read so far. The result is at most `largest`. -/
def magnitude (largest : Nat) (outOfRange : Fault) (n : Nat) : List Char → Except Fault Nat
  | [] => .ok n
  | c :: cs =>
    match digit? c with
    | none => .error .invalidDigit
    | some d =>
      if n * 10 + d ≤ largest then magnitude largest outOfRange (n * 10 + d) cs
      else .error outOfRange

/-- Reads a signed 64-bit integer, with an optional sign of either kind. -/
def readInt64 : List Char → Except Fault Int64
  | [] => .error .empty
  | ['-'] => .error .invalidDigit
  | ['+'] => .error .invalidDigit
  | '-' :: cs => (magnitude 0x8000000000000000 .belowRange 0 cs).map fun n => Int64.ofInt (-n)
  | '+' :: cs => (magnitude 0x7FFFFFFFFFFFFFFF .aboveRange 0 cs).map fun n => Int64.ofInt n
  | cs => (magnitude 0x7FFFFFFFFFFFFFFF .aboveRange 0 cs).map fun n => Int64.ofInt n

/-- Reads a number below `2 ^ 64`, with an optional plus sign. -/
def readWord64 : List Char → Except Fault Nat
  | [] => .error .empty
  | ['-'] => .error .invalidDigit
  | ['+'] => .error .invalidDigit
  | '+' :: cs => magnitude 0xFFFFFFFFFFFFFFFF .aboveRange 0 cs
  | cs => magnitude 0xFFFFFFFFFFFFFFFF .aboveRange 0 cs

end Forth.Decimal
