import Mathlib
import Forth.Proofs.Arithmetic

/-!
# The absolute value

The absolute value of a number of 64 bits is computed without a branch. The shift makes a mask of
the sign, zero or minus one (`shiftRight_sign`), and the sum and the flip under the mask then do
nothing to a number that is not negative and negate any other (`maskedAbs_of_neg`).

All else follows from these two cases and from what negation does to a sign. One number keeps its
sign when it is negated, the least one, so its absolute value is negative, and no other is
(`maskedAbs_nonneg_iff`). Still the absolute value does not depend on the sign, not even there
(`maskedAbs_neg`).
-/

namespace Forth

/-- The shift copies the sign to every place. -/
theorem shiftRight_sign (n : Int64) : n >>> 63 = if n < 0 then -1 else 0 := by
  -- The shift is a division that rounds down, so nothing is left of a number but its sign.
  have shifted : (n >>> 63).toInt = n.toInt / 2 ^ 63 :=
    BitVec.toInt_sshiftRight'.trans (Int.shiftRight_eq_div_pow _ _)
  have := n.le_toInt
  have := n.toInt_lt
  apply Int64.toInt_inj.1
  rw [shifted]
  by_cases negative : n < 0
  · rw [if_pos negative]
    rw [Int64.lt_iff_toInt_lt, Int64.toInt_zero] at negative
    change _ = (-1 : Int)
    omega
  · rw [if_neg negative, Int64.toInt_zero]
    rw [Int64.lt_iff_toInt_lt, Int64.toInt_zero] at negative
    omega

section

variable {n : Int64}

theorem maskedAbs_of_nonneg (nonneg : 0 ≤ n) : maskedAbs n = n := by
  rw [maskedAbs, shiftRight_sign, if_neg (Int64.not_lt.2 nonneg), Int64.add_zero, Int64.xor_zero]

/-- A step down and a flip of all bits make the negation. -/
theorem maskedAbs_of_neg (negative : n < 0) : maskedAbs n = -n := by
  calc maskedAbs n
      = (n + -1) ^^^ -1 := by rw [maskedAbs, shiftRight_sign, if_pos negative]
    _ = ~~~(n + -1) := Int64.xor_neg_one
    _ = -(n + -1) - 1 := Int64.not_eq_neg_sub _
    _ = -n := by rw [Int64.neg_add, Int64.sub_neg, Int64.add_sub_cancel]

theorem maskedAbs_of_nonpos (nonpos : n ≤ 0) : maskedAbs n = -n := by
  rcases Int64.lt_or_eq_of_le nonpos with negative | rfl
  · exact maskedAbs_of_neg negative
  · rfl

theorem maskedAbs_minValue : maskedAbs Int64.minValue = Int64.minValue :=
  maskedAbs_of_neg (by decide)

/-- The absolute value wraps around, as the results of the other operations do. -/
theorem Wrapped.absoluteValue (n : Int64) : Wrapped |n.toInt| (maskedAbs n) := by
  by_cases negative : n < 0
  · have below : n.toInt < 0 := Int64.lt_iff_toInt_lt.1 negative
    rw [maskedAbs_of_neg negative, abs_of_neg below]
    exact .neg n
  · have nonneg : 0 ≤ n := Int64.not_lt.1 negative
    rw [maskedAbs_of_nonneg nonneg, abs_of_nonneg (Int64.le_iff_toInt_le.1 nonneg)]
    exact .of_modEq rfl

/-- The absolute value of the least number does not fit, and that of any other does. -/
theorem maskedAbs_nonneg_iff : 0 ≤ maskedAbs n ↔ n ≠ Int64.minValue := by
  constructor
  · rintro nonneg rfl
    rw [maskedAbs_minValue] at nonneg
    exact absurd nonneg (by decide)
  · intro other
    by_cases nonneg : 0 ≤ n
    · rwa [maskedAbs_of_nonneg nonneg]
    · have positive : ¬ -n ≤ 0 := by
        rw [Int64.neg_nonpos_iff]
        exact not_or.2 ⟨other, nonneg⟩
      rw [maskedAbs_of_neg (Int64.not_le.1 nonneg)]
      exact Int64.le_of_lt (Int64.not_le.1 positive)

theorem maskedAbs_maskedAbs (n : Int64) : maskedAbs (maskedAbs n) = maskedAbs n := by
  by_cases least : n = Int64.minValue
  · rw [least, maskedAbs_minValue, maskedAbs_minValue]
  · exact maskedAbs_of_nonneg (maskedAbs_nonneg_iff.2 least)

theorem maskedAbs_neg (n : Int64) : maskedAbs (-n) = maskedAbs n := by
  -- The sign of `-n` is the one to ask for: where it is not positive, `n` may be the least number.
  by_cases nonpos : -n ≤ 0
  · rw [maskedAbs_of_nonpos nonpos, Int64.neg_neg]
    rcases (Int64.neg_nonpos_iff n).1 nonpos with rfl | nonneg
    · exact maskedAbs_minValue.symm
    · exact (maskedAbs_of_nonneg nonneg).symm
  · have negative : n < 0 := by
      rw [← Int64.not_le]
      exact fun nonneg => nonpos ((Int64.neg_nonpos_iff n).2 (.inr nonneg))
    rw [maskedAbs_of_nonneg (Int64.le_of_lt (Int64.not_le.1 nonpos)), maskedAbs_of_neg negative]

end

namespace Native

/-- Two words of one operand are one word of one operand. Without the operand, the second one is not
reached, and the first one fails as both together do. -/
theorem unary_bind_unary (f g : Int64 → Int64) :
    (unary f >>= fun _ => unary g) = unary (g ∘ f) := by
  funext s
  cases items : s.ints.toList with
  | nil => rw [Action.bind_of_error (unary_of_nil items), unary_of_nil items]
  | cons n below =>
    rw [Action.bind_of_ok (unary_of_cons items), unary_of_cons rfl, unary_of_cons items]
    rfl

/-- Whatever the stack, `abs` undoes a `negate` before it and makes another `abs` before it
superfluous. -/
theorem abs_absorbs :
    (negate.apply >>= fun _ => abs.apply) = abs.apply ∧
    (abs.apply >>= fun _ => abs.apply) = abs.apply := by
  simp only [apply, unary_bind_unary]
  exact ⟨congrArg unary (funext maskedAbs_neg), congrArg unary (funext maskedAbs_maskedAbs)⟩

/-- The absolute value that is computed without a branch is right for every number of 64 bits.

The shift gives minus one for a negative number and zero for any other, and accordingly the result
is the negation of the number, wrapped around, or the number itself. In either case it is congruent
to the absolute value of the integer. It is negative for the least number alone, which is its own
absolute value; it is its own absolute value for every number; and it is that of the negated number.
The word `abs` puts it in the place of the number. -/
theorem absolute_value_exact (n : Int64) :
    n >>> 63 = (if n < 0 then -1 else 0) ∧
    (0 ≤ n → maskedAbs n = n) ∧
    (n < 0 → maskedAbs n = -n) ∧
    Wrapped |n.toInt| (maskedAbs n) ∧
    (0 ≤ maskedAbs n ↔ n ≠ Int64.minValue) ∧
    maskedAbs Int64.minValue = Int64.minValue ∧
    maskedAbs (maskedAbs n) = maskedAbs n ∧
    maskedAbs (-n) = maskedAbs n ∧
    ∀ s below, s.ints.toList = n :: below → abs.Leaves s (maskedAbs n :: below) :=
  ⟨shiftRight_sign n, maskedAbs_of_nonneg, maskedAbs_of_neg, .absoluteValue n,
    maskedAbs_nonneg_iff, maskedAbs_minValue, maskedAbs_maskedAbs n, maskedAbs_neg n,
    fun _ _ items => unary_of_cons items⟩

/-- A negative number and its negation, and the word on the former. -/
theorem absolute_value_exact_at_nine :
    maskedAbs (-9) = 9 ∧ maskedAbs 9 = 9 ∧ 0 ≤ maskedAbs (-9) ∧
    abs.Leaves (holding [-9, 4]) [9, 4] := by
  obtain ⟨-, -, negated, -, sign, -, -, -, left⟩ := absolute_value_exact (-9)
  obtain ⟨-, kept, -⟩ := absolute_value_exact 9
  have nine : maskedAbs (-9) = 9 := negated (by decide)
  have replaced := left (holding [-9, 4]) [4] rfl
  rw [nine] at replaced
  exact ⟨nine, kept (by decide), sign.2 (by decide), replaced⟩

end Native

end Forth
