import Mathlib
import Forth.Number.Decimal
import Forth.Token

/-!
# Numerals

The digits of a number are read back as that number: reading digits computes their value, unless
the value is out of range (`Decimal.magnitude_of_digits`), and an integer is printed with the digits
of its magnitude (`Decimal.toList_toString`). So every integer is what its own text is read as
(`Decimal.readInt64_toString`), the least one included.
-/

namespace Forth.Decimal

variable {c : Char} {cs : List Char} {n largest : Nat} {outOfRange : Fault}

/-! ## Reading digits -/

theorem le_ofDigitChars (n : Nat) (cs : List Char) : n ≤ Nat.ofDigitChars 10 cs n := by
  induction cs generalizing n with
  | nil => exact Nat.le_of_eq Nat.ofDigitChars_nil.symm
  | cons c cs ih =>
    rw [Nat.ofDigitChars_cons]
    have := ih (10 * n + (c.toNat - '0'.toNat))
    omega

/-- The digits that a text starts with decide whether it is out of range. What follows them is
looked at only if they are not. -/
theorem magnitude_eq (small : n ≤ largest) :
    magnitude largest outOfRange n cs =
      if largest < Nat.ofDigitChars 10 (cs.takeWhile Char.isDigit) n then .error outOfRange
      else if cs.all Char.isDigit then .ok (Nat.ofDigitChars 10 cs n)
      else .error .invalidDigit := by
  induction cs generalizing n with
  | nil =>
    rw [magnitude, List.takeWhile_nil, Nat.ofDigitChars_nil, if_neg (Nat.not_lt_of_le small)]
    rfl
  | cons c cs ih =>
    cases digit : c.isDigit with
    | false =>
      have noValue : digit? c = none := if_neg (by simp [digit])
      have noMore : (c :: cs).takeWhile Char.isDigit = [] :=
        List.takeWhile_cons_of_neg (by simp [digit])
      rw [noMore, Nat.ofDigitChars_nil, if_neg (Nat.not_lt_of_le small)]
      simp [magnitude, noValue, digit]
    | true =>
      have value : digit? c = some (c.toNat - '0'.toNat) := if_pos digit
      simp only [magnitude, value]
      rw [List.takeWhile_cons_of_pos digit, List.all_cons, digit, Bool.true_and,
        Nat.ofDigitChars_cons, Nat.ofDigitChars_cons, Nat.mul_comm 10 n]
      by_cases fits : n * 10 + (c.toNat - '0'.toNat) ≤ largest
      · rw [if_pos fits, ih fits]
      · -- The digits that follow do not bring the number back into range.
        have more := le_ofDigitChars (n * 10 + (c.toNat - '0'.toNat)) (cs.takeWhile Char.isDigit)
        rw [if_neg fits, if_pos (by omega)]

/-- Digits are read as the number that they are the digits of, after those read so far, if it is in
range. -/
theorem magnitude_of_digits (digits : ∀ c ∈ cs, c.isDigit = true) (small : n ≤ largest) :
    magnitude largest outOfRange n cs =
      if Nat.ofDigitChars 10 cs n ≤ largest then .ok (Nat.ofDigitChars 10 cs n)
      else .error outOfRange := by
  rw [magnitude_eq small, List.takeWhile_eq_self_iff.2 digits, if_pos (List.all_eq_true.2 digits)]
  by_cases fits : Nat.ofDigitChars 10 cs n ≤ largest
  · rw [if_pos fits, if_neg (Nat.not_lt_of_le fits)]
  · rw [if_neg fits, if_pos (Nat.lt_of_not_le fits)]

theorem readInt64_of_minus (nonempty : cs ≠ []) :
    readInt64 ('-' :: cs) =
      (magnitude 0x8000000000000000 .belowRange 0 cs).map fun (n : Nat) => Int64.ofInt (-n) := by
  cases cs with
  | nil => exact absurd rfl nonempty
  | cons c cs =>
    rw [readInt64]
    · cases magnitude 0x8000000000000000 .belowRange 0 (c :: cs) <;> rfl
    · exact List.cons_ne_nil c cs

theorem readInt64_of_digit (digit : c.isDigit = true) :
    readInt64 (c :: cs) =
      (magnitude 0x7FFFFFFFFFFFFFFF .aboveRange 0 (c :: cs)).map
        fun (n : Nat) => Int64.ofInt n := by
  have noMinus : c ≠ '-' := by
    rintro rfl
    cases digit
  have noPlus : c ≠ '+' := by
    rintro rfl
    cases digit
  rw [readInt64]
  · cases magnitude 0x7FFFFFFFFFFFFFFF .aboveRange 0 (c :: cs) <;> rfl
  all_goals simp [noMinus, noPlus]

theorem readInt64_of_digits (nonempty : cs ≠ []) (digits : ∀ c ∈ cs, c.isDigit = true) :
    readInt64 cs =
      (magnitude 0x7FFFFFFFFFFFFFFF .aboveRange 0 cs).map fun (n : Nat) => Int64.ofInt n := by
  obtain ⟨c, cs, rfl⟩ := List.exists_cons_of_ne_nil nonempty
  exact readInt64_of_digit (List.forall_mem_cons.1 digits).1

/-! ## Printing integers -/

theorem isDigit_of_mem_toDigits (h : c ∈ Nat.toDigits 10 n) : c.isDigit = true :=
  Nat.isDigit_of_mem_toDigits (by decide) (by decide) h

theorem isDigit_of_mem_repr (h : c ∈ n.repr.toList) : c.isDigit = true := by
  rw [Nat.toList_repr] at h
  exact isDigit_of_mem_toDigits h

/-- An integer is printed as the digits of its magnitude, after a sign if it is negative. -/
theorem toList_toString (n : Int64) :
    (toString n).toList =
      if 0 ≤ n.toInt then Nat.toDigits 10 n.toInt.toNat
      else '-' :: Nat.toDigits 10 (-n.toInt).toNat := by
  have printed : toString n = n.toInt.repr := rfl
  rw [printed, Int.repr_eq_if]
  split
  · exact Nat.toList_repr
  · rw [String.toList_append, Nat.toList_repr]
    rfl

theorem toList_toString_ne_nil (n : Int64) : (toString n).toList ≠ [] := by
  rw [toList_toString]
  split
  · exact Nat.toDigits_ne_nil
  · exact List.cons_ne_nil _ _

theorem startsNumber_of_mem_toString {n : Int64} (h : c ∈ (toString n).toList) :
    Token.startsNumber c = true := by
  have ofDigit {m : Nat} (digit : c ∈ Nat.toDigits 10 m) : Token.startsNumber c = true := by
    rw [Token.startsNumber, isDigit_of_mem_toDigits digit, Bool.true_or]
  rw [toList_toString] at h
  split at h
  · exact ofDigit h
  · rcases List.mem_cons.1 h with rfl | digit
    · rfl
    · exact ofDigit digit

theorem magnitude_toDigits (h : n ≤ largest) :
    magnitude largest outOfRange 0 (Nat.toDigits 10 n) = .ok n := by
  rw [magnitude_of_digits (fun c => isDigit_of_mem_toDigits) (Nat.zero_le largest),
    Nat.ofDigitChars_ten_toDigits, if_pos h]

/-- An integer is what its own text is read as. -/
theorem readInt64_toString (n : Int64) : readInt64 (toString n).toList = .ok n := by
  have above := n.toInt_lt
  have below := n.le_toInt
  rw [toList_toString]
  split
  next nonneg =>
    have magnitude : (n.toInt.toNat : Int) = n.toInt := Int.toNat_of_nonneg nonneg
    rw [readInt64_of_digits Nat.toDigits_ne_nil fun c => isDigit_of_mem_toDigits,
      magnitude_toDigits (by omega)]
    simp only [Except.map, magnitude, Int64.ofInt_toInt]
  next negative =>
    have magnitude : -((-n.toInt).toNat : Int) = n.toInt := by omega
    rw [readInt64_of_minus Nat.toDigits_ne_nil, magnitude_toDigits (by omega)]
    simp only [Except.map, magnitude, Int64.ofInt_toInt]

end Forth.Decimal
