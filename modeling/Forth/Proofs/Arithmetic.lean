import Mathlib
import Forth.Proofs.StackEffects

/-!
# Arithmetic on 64 bits

The words of arithmetic compute with numbers of 64 bits, and what they compute is the integer that
the operation has on its operands, wrapped around: the one number of 64 bits that is congruent to it
(`Wrapped`). Where the integer has 64 bits itself, it is the result.

A quotient is truncated towards zero, and only one does not have 64 bits. The remainder belongs to
it: it is smaller than the divisor, has the sign of the dividend, and together with the quotient
gives back the dividend, even in that one case (`Wrapped.div_mul_add_mod`).
-/

namespace Forth

/-- The number is the one of 64 bits that is congruent to the integer. -/
structure Wrapped (x : Int) (n : Int64) : Prop where
  congruent : n.toInt ≡ x [ZMOD 2 ^ 64]
  unique : ∀ m : Int64, m.toInt ≡ x [ZMOD 2 ^ 64] → m = n

namespace Wrapped

variable {x : Int} {a b n : Int64}

/-- No two numbers of 64 bits are congruent. -/
theorem eq_of_modEq {m n : Int64} (h : m.toInt ≡ n.toInt [ZMOD 2 ^ 64]) : m = n := by
  have := m.le_toInt
  have := m.toInt_lt
  have := n.le_toInt
  have := n.toInt_lt
  apply Int64.toInt_inj.1
  unfold Int.ModEq at h
  omega

theorem of_modEq (h : n.toInt ≡ x [ZMOD 2 ^ 64]) : Wrapped x n :=
  ⟨h, fun _ congruent => eq_of_modEq (congruent.trans h.symm)⟩

theorem bmod_modEq (x : Int) : x.bmod (2 ^ 64) ≡ x [ZMOD 2 ^ 64] := Int.bmod_emod

theorem of_toInt_eq_bmod (h : n.toInt = x.bmod (2 ^ 64)) : Wrapped x n :=
  of_modEq (h ▸ bmod_modEq x)

theorem add (a b : Int64) : Wrapped (a.toInt + b.toInt) (a + b) :=
  of_toInt_eq_bmod (Int64.toInt_add a b)

theorem sub (a b : Int64) : Wrapped (a.toInt - b.toInt) (a - b) :=
  of_toInt_eq_bmod (Int64.toInt_sub a b)

theorem mul (a b : Int64) : Wrapped (a.toInt * b.toInt) (a * b) :=
  of_toInt_eq_bmod (Int64.toInt_mul a b)

theorem neg (a : Int64) : Wrapped (-a.toInt) (-a) :=
  of_toInt_eq_bmod (Int64.toInt_neg a)

/-- Quotient and remainder give back the dividend. -/
theorem div_mul_add_mod (a b : Int64) :
    Wrapped ((a / b).toInt * b.toInt + (a % b).toInt) a := by
  have quotient : (a / b).toInt ≡ a.toInt.tdiv b.toInt [ZMOD 2 ^ 64] := by
    rw [Int64.toInt_div]
    exact bmod_modEq _
  refine of_modEq (Int.ModEq.symm ?_)
  calc (a / b).toInt * b.toInt + (a % b).toInt
      ≡ a.toInt.tdiv b.toInt * b.toInt + (a % b).toInt [ZMOD 2 ^ 64] :=
        (quotient.mul_right _).add_right _
    _ = a.toInt := by rw [Int64.toInt_mod, Int.tdiv_mul_add_tmod]

end Wrapped

/-- The quotient is truncated towards zero, unless it does not have 64 bits. -/
theorem toInt_div_of_not_overflow {a b : Int64} (fits : ¬ (a = Int64.minValue ∧ b = -1)) :
    (a / b).toInt = a.toInt.tdiv b.toInt := by
  by_cases least : a = Int64.minValue
  · exact Int64.toInt_div_of_ne_right a b fun minus => fits ⟨least, minus⟩
  · exact Int64.toInt_div_of_ne_left a b least

theorem natAbs_toInt_mod_lt {a b : Int64} (nonzero : b ≠ 0) :
    (a % b).toInt.natAbs < b.toInt.natAbs := by
  have divisor : b.toInt ≠ 0 := fun zero => nonzero (Int64.toInt_inj.1 zero)
  rw [Int64.toInt_mod, Int.natAbs_tmod]
  exact Nat.mod_lt _ (Int.natAbs_pos.2 divisor)

theorem sign_toInt_mod (a b : Int64) :
    a % b = 0 ∨ (a % b).toInt.sign = a.toInt.sign := by
  rw [Int64.toInt_mod, Int.sign_tmod]
  by_cases divides : b.toInt ∣ a.toInt
  · left
    apply Int64.toInt_inj.1
    rw [Int64.toInt_mod, Int.tmod_eq_zero_of_dvd divides]
    rfl
  · right
    rw [if_neg divides]

namespace Native

/-- The word succeeds with this stack, and changes nothing else. -/
def Leaves (w : Native) (s : State) (items : List Int64) : Prop :=
  w.apply s = .ok () { s with ints := .ofList items }

/-- The words of arithmetic are exact up to a multiple of `2 ^ 64`, and each of them has a result
for all operands but zero divisors, where division fails.

With `b` on top of `a`, sum, difference and product are the numbers of 64 bits that are congruent to
those of the integers, the lower operand being the left one. The quotient of a division is truncated
towards zero, and is the least number where it would be one more than the greatest. The remainder is
smaller than the divisor and is zero or has the sign of the dividend, and the product of quotient
and divisor, increased by the remainder, wraps around to the dividend. Negation wraps around too,
and negating twice changes nothing. -/
theorem arithmetic_exact (s : State) :
    (∀ a b below, s.ints.toList = b :: a :: below →
      (∃ n, add.Leaves s (n :: below) ∧ Wrapped (a.toInt + b.toInt) n) ∧
      (∃ n, sub.Leaves s (n :: below) ∧ Wrapped (a.toInt - b.toInt) n) ∧
      (∃ n, mul.Leaves s (n :: below) ∧ Wrapped (a.toInt * b.toInt) n) ∧
      (b ≠ 0 → ∃ q r, div.Leaves s (q :: below) ∧ mod.Leaves s (r :: below) ∧
        (¬ (a = Int64.minValue ∧ b = -1) → q.toInt = a.toInt.tdiv b.toInt) ∧
        (a = Int64.minValue ∧ b = -1 → q = Int64.minValue) ∧
        r.toInt.natAbs < b.toInt.natAbs ∧ (r = 0 ∨ r.toInt.sign = a.toInt.sign) ∧
        Wrapped (q.toInt * b.toInt + r.toInt) a) ∧
      (b = 0 →
        div.apply s = .error (.divisionByZero "/") { s with ints := .ofList below } ∧
        mod.apply s = .error (.divisionByZero "mod") { s with ints := .ofList below })) ∧
    ∀ a below, s.ints.toList = a :: below →
      (∃ n, negate.Leaves s (n :: below) ∧ Wrapped (-a.toInt) n) ∧
      (negate.apply >>= fun _ => negate.apply) s = .ok () s := by
  refine ⟨?_, ?_⟩
  · intro a b below items
    refine ⟨⟨a + b, apply_add items, .add a b⟩, ⟨a - b, apply_sub items, .sub a b⟩,
      ⟨a * b, apply_mul items, .mul a b⟩, ?_, ?_⟩
    · intro nonzero
      refine ⟨a / b, a % b, apply_div items nonzero, apply_mod items nonzero,
        toInt_div_of_not_overflow, ?_, natAbs_toInt_mod_lt nonzero, sign_toInt_mod a b,
        .div_mul_add_mod a b⟩
      rintro ⟨rfl, rfl⟩
      rfl
    · rintro rfl
      exact ⟨binary_of_two items, binary_of_two items⟩
  · intro a below items
    have once := unary_of_cons (f := fun n => -n) items
    have twice : negate.apply { s with ints := .ofList (-a :: below) } =
        .ok () { s with ints := .ofList (- -a :: below) } := unary_of_cons rfl
    have same : Stack.ofList (a :: below) = s.ints := Stack.ext items.symm
    rw [Int64.neg_neg, same] at twice
    exact ⟨⟨-a, once, .neg a⟩, (Action.bind_of_ok once).trans twice⟩

/-- The quotient that overflows, its remainder, and the negation that does. -/
theorem arithmetic_exact_at_least :
    div.Leaves (holding [-1, Int64.minValue, 7]) [Int64.minValue, 7] ∧
    mod.Leaves (holding [-1, Int64.minValue, 7]) [0, 7] ∧
    (∃ n, sub.Leaves (holding [1, Int64.minValue]) [n] ∧ Wrapped (-2 ^ 63 - 1) n) ∧
    (negate.apply >>= fun _ => negate.apply) (holding [Int64.minValue]) =
      .ok () (holding [Int64.minValue]) := by
  obtain ⟨-, -, -, divided, -⟩ :=
    (arithmetic_exact (holding [-1, Int64.minValue, 7])).1 Int64.minValue (-1) [7] rfl
  obtain ⟨q, r, quotient, remainder, -, overflow, small, -⟩ := divided (by decide)
  obtain rfl : q = Int64.minValue := overflow ⟨rfl, rfl⟩
  obtain rfl : r = 0 := by
    apply Int64.toInt_inj.1
    simpa using small
  obtain ⟨-, difference, -⟩ :=
    (arithmetic_exact (holding [1, Int64.minValue])).1 Int64.minValue 1 [] rfl
  exact ⟨quotient, remainder, difference,
    ((arithmetic_exact (holding [Int64.minValue])).2 Int64.minValue [] rfl).2⟩

end Native

end Forth
