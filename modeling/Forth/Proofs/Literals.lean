import Mathlib
import Forth.Proofs.Faults
import Forth.Proofs.Numerals

/-!
# Literals

A token that starts with a digit or a minus sign competes for four readings, in this order: an
integer, a number kept for floating point, a word, and a number that cannot be read.
`Decimal.Literal` is the grammar of integers, with the integer that each of its texts denotes.
Reading accepts exactly the texts of this grammar that denote a number of 64 bits, and what it says
of the others is told by the integer that they start with (`readInt64_eq_ok`, `readInt64_eq_error`).

What a token does follows from that (`Interpreter.execute_of_startsNumber`). A literal is pushed
whatever the dictionary holds; a word is looked up only under a name that is none.
-/

namespace Forth

namespace Decimal

/-- How an integer is written, and which one: at least one digit, behind a minus sign or not. -/
inductive Literal : List Char → Int → Prop where
  | digits {cs : List Char} (nonempty : cs ≠ []) (digits : ∀ c ∈ cs, c.isDigit = true) :
      Literal cs (Nat.ofDigitChars 10 cs 0)
  | minus {cs : List Char} (nonempty : cs ≠ []) (digits : ∀ c ∈ cs, c.isDigit = true) :
      Literal ('-' :: cs) (-Nat.ofDigitChars 10 cs 0)

/-- The integer that a text starts with: its sign, and the digits after it as far as they go. -/
def leading : List Char → Int
  | '-' :: cs => -Nat.ofDigitChars 10 (cs.takeWhile Char.isDigit) 0
  | cs => Nat.ofDigitChars 10 (cs.takeWhile Char.isDigit) 0

/-- The integer is one of 64 bits. -/
def InRange (n : Int) : Prop := -2 ^ 63 ≤ n ∧ n < 2 ^ 63

instance (n : Int) : Decidable (InRange n) := inferInstanceAs (Decidable (_ ∧ _))

/-- What is said of a number that is out of range. -/
def outOfRange (cs : List Char) : Fault :=
  if cs.head? = some '-' then .belowRange else .aboveRange

variable {c : Char} {cs : List Char} {n : Int}

theorem leading_of_digit (digit : c.isDigit = true) :
    leading (c :: cs) = Nat.ofDigitChars 10 ((c :: cs).takeWhile Char.isDigit) 0 := by
  rw [leading]
  rintro _ ⟨rfl, -⟩
  cases digit

theorem outOfRange_of_digit (digit : c.isDigit = true) : outOfRange (c :: cs) = .aboveRange := by
  rw [outOfRange, List.head?_cons, if_neg]
  rintro ⟨⟩
  cases digit

theorem outOfRange_of_minus : outOfRange ('-' :: cs) = .belowRange := rfl

/-- A text denotes no integer but the one that it starts with. -/
theorem Literal.eq_leading (h : Literal cs n) : n = leading cs := by
  cases h with
  | digits nonempty digits =>
    obtain ⟨c, cs, rfl⟩ := List.exists_cons_of_ne_nil nonempty
    rw [leading_of_digit (List.forall_mem_cons.1 digits).1, List.takeWhile_eq_self_iff.2 digits]
  | minus _ digits => rw [leading, List.takeWhile_eq_self_iff.2 digits]

/-- The last character of a literal is a digit. -/
theorem Literal.getLast?_ne (h : Literal cs n) (other : c.isDigit = false) :
    cs.getLast? ≠ some c := by
  have ofDigits {ds : List Char} (digits : ∀ c ∈ ds, c.isDigit = true) : ds.getLast? ≠ some c := by
    intro last
    rw [digits c (List.mem_of_getLast? last)] at other
    cases other
  cases h with
  | digits _ digits => exact ofDigits digits
  | @minus ds nonempty digits =>
    rw [List.getLast?_cons_of_ne_nil nonempty]
    exact ofDigits digits

theorem ofInt_of_toInt {n : Int64} {m : Int} (h : n.toInt = m) : Int64.ofInt m = n := by
  rw [← h, Int64.ofInt_toInt]

/-- A literal is read as the integer that it denotes, leading zeros and a signed zero included. -/
theorem readInt64_eq_ok {n : Int64} (h : Literal cs n.toInt) : readInt64 cs = .ok n := by
  have below := n.toInt_lt
  have above := n.le_toInt
  generalize denoted : n.toInt = m at h above below
  cases h with
  | digits nonempty digits =>
    rw [readInt64_of_digits nonempty digits, magnitude_of_digits digits (Nat.zero_le _),
      if_pos (by omega)]
    exact congrArg Except.ok (ofInt_of_toInt denoted)
  | minus nonempty digits =>
    rw [readInt64_of_minus nonempty, magnitude_of_digits digits (Nat.zero_le _), if_pos (by omega)]
    exact congrArg Except.ok (ofInt_of_toInt denoted)

theorem exists_toInt_eq (h : InRange n) : ∃ m : Int64, m.toInt = n :=
  ⟨Int64.ofInt n, Int64.toInt_ofInt_of_le h.1 h.2⟩

/-- Digits that are out of range, or that something else follows, are refused. -/
theorem map_magnitude_eq_error {largest : Nat} {above : Fault} {f : Nat → Int64}
    (refused : (∀ c ∈ cs, c.isDigit = true) → largest < Nat.ofDigitChars 10 cs 0) :
    (magnitude largest above 0 cs).map f =
      .error (if Nat.ofDigitChars 10 (cs.takeWhile Char.isDigit) 0 ≤ largest then .invalidDigit
        else above) := by
  rw [magnitude_eq (Nat.zero_le largest)]
  by_cases fits : Nat.ofDigitChars 10 (cs.takeWhile Char.isDigit) 0 ≤ largest
  · have junk : ¬ cs.all Char.isDigit = true := by
      intro digits
      rw [List.all_eq_true] at digits
      have beyond := refused digits
      rw [List.takeWhile_eq_self_iff.2 digits] at fits
      omega
    rw [if_neg (Nat.not_lt_of_le fits), if_neg junk, if_pos fits]
    rfl
  · rw [if_pos (Nat.lt_of_not_le fits), if_neg fits]
    rfl

/-- Any other text is refused for the integer that it starts with, if that is out of range, and
else for the character that ends it. -/
theorem readInt64_eq_error (starts : ∃ c ∈ cs.head?, Token.startsNumber c = true)
    (other : ∀ n : Int64, ¬ Literal cs n.toInt) :
    readInt64 cs = .error (if InRange (leading cs) then .invalidDigit else outOfRange cs) := by
  have beyond {m : Int} (h : Literal cs m) : ¬ InRange m := by
    intro inRange
    obtain ⟨n, rfl⟩ := exists_toInt_eq inRange
    exact other n h
  obtain ⟨c, first, starts⟩ := starts
  obtain ⟨cs, rfl⟩ := List.head?_eq_some_iff.1 first
  rw [Token.startsNumber, Bool.or_eq_true, beq_iff_eq] at starts
  rcases starts with digit | rfl
  · rw [readInt64_of_digit digit, outOfRange_of_digit digit, leading_of_digit digit,
      map_magnitude_eq_error]
    · simp only [InRange]
      congr 2
      exact propext (by omega)
    · intro digits
      have := beyond (.digits (List.cons_ne_nil c cs) digits)
      simp only [InRange] at this
      omega
  · cases cs with
    | nil => decide
    | cons c cs =>
      rw [readInt64_of_minus (List.cons_ne_nil c cs), outOfRange_of_minus, leading,
        map_magnitude_eq_error]
      · simp only [InRange]
        congr 2
        exact propext (by omega)
      · intro digits
        have := beyond (.minus (List.cons_ne_nil c cs) digits)
        simp only [InRange] at this
        omega

end Decimal

/-- The token starts with a digit or a minus sign. -/
def Token.StartsNumber (t : Token) : Prop := ∃ c ∈ t.toList.head?, Token.startsNumber c = true

namespace Dictionary

variable {d : Dictionary} {t : Token}

theorem kind_of_startsNumber (starts : t.StartsNumber) : t.kind = .number := by
  obtain ⟨c, first, starts⟩ := starts
  simp only [Token.kind, Option.mem_def.1 first, starts, if_true]

/-- A literal stands for its integer, whatever the dictionary holds. -/
theorem meaning_of_literal {n : Int64} (starts : t.StartsNumber)
    (literal : Decimal.Literal t.toList n.toInt) : d.meaning t = .number n := by
  have integral : t.isFloat = false := by
    simpa [Token.isFloat] using literal.getLast?_ne (c := 'e') rfl
  simp only [meaning, kind_of_startsNumber starts, integral, Decimal.readInt64_eq_ok literal,
    Bool.false_eq_true, if_false]

theorem meaning_of_float (starts : t.StartsNumber) (float : t.toList.getLast? = some 'e') :
    d.meaning t = .fault (.floatUnsupported t) := by
  have kept : t.isFloat = true := by rw [Token.isFloat, float, beq_self_eq_true]
  simp only [meaning, kind_of_startsNumber starts, kept, if_true]

theorem meaning_of_unread {cause : Decimal.Fault} (starts : t.StartsNumber)
    (integral : t.toList.getLast? ≠ some 'e')
    (unread : Decimal.readInt64 t.toList = .error cause) :
    d.meaning t =
      if (d.resolve? t).isSome then d.wordMeaning t else .fault (.unreadable t cause) := by
  have notKept : t.isFloat = false := by simpa [Token.isFloat] using integral
  simp only [meaning, kind_of_startsNumber starts, notKept, unread, contains_iff,
    Bool.false_eq_true, if_false]

end Dictionary

namespace Execution

/-- What the word that a name is bound to does under the given frames. -/
def invoke (limit : Nat) (b : Binding) (frames : Stack Frame) : Action (Stack Frame) :=
  match b with
  | .native w => do
    w.apply
    return frames
  | .composite w =>
    if limit ≤ frames.size then throw (.tooDeep w.name limit) else return frames.push (.start w)

theorem dispatch_eq_invoke {d : Dictionary} {t : Token} {b : Binding}
    (word : d.meaning t = d.wordMeaning t) (bound : d.resolve? t = some b) (limit : Nat)
    (frames : Stack Frame) : dispatch d limit t frames = invoke limit b frames := by
  rw [dispatch, word, Dictionary.wordMeaning, bound]
  cases b <;> rfl

end Execution

namespace Interpreter

/-- A token that starts with a digit or a minus sign is read in one of four ways.

If it is a literal of 64 bits, its integer is pushed and nothing else happens, even where the token
is the name of a word. If it is none and ends in `e`, it is refused. If it is none and does not end
in `e`, the dictionary decides: under a name that is bound it is dispatched as what it is bound to,
and is never called unreadable; otherwise it is, for being out of range exactly if the integer that
it starts with is, and else for its characters. A token that is refused leaves everything as it
was. -/
theorem execute_of_startsNumber (i : Interpreter) (t : Token) (starts : t.StartsNumber) :
    (∀ n : Int64, Decimal.Literal t.toList n.toInt →
      i.execute t = (.ok (), { i with state := i.state.push n })) ∧
    ((∀ n : Int64, ¬ Decimal.Literal t.toList n.toInt) →
      (t.toList.getLast? = some 'e' → i.execute t = (.error (.floatUnsupported t), i)) ∧
      (t.toList.getLast? ≠ some 'e' →
        (∀ b, i.dictionary.resolve? t = some b →
          (∀ limit frames, Execution.dispatch i.dictionary limit t frames =
            Execution.invoke limit b frames) ∧
          ∀ cause, (i.execute t).1 ≠ .error (.unreadable t cause)) ∧
        (i.dictionary.resolve? t = none →
          i.execute t = (.error (.unreadable t
            (if Decimal.InRange (Decimal.leading t.toList) then .invalidDigit
              else Decimal.outOfRange t.toList)), i)))) := by
  refine ⟨?_, ?_⟩
  · intro n literal
    exact execute_of_number (Dictionary.meaning_of_literal starts literal)
  intro other
  have unread := Decimal.readInt64_eq_error starts other
  refine ⟨?_, ?_⟩
  · intro float
    exact execute_of_fault (Dictionary.meaning_of_float starts float)
  intro integral
  have stands := Dictionary.meaning_of_unread (d := i.dictionary) starts integral unread
  refine ⟨?_, ?_⟩
  · intro b bound
    rw [bound, Option.isSome_some, if_pos rfl] at stands
    refine ⟨Execution.dispatch_eq_invoke stands bound, ?_⟩
    intro cause failed
    -- Where a fault calls a token unreadable, the token is not bound.
    obtain ⟨-, ⟨-, -, unbound, -⟩, -⟩ := fault_true_where_left i t _ failed
    rw [bound] at unbound
    cases unbound
  · intro unbound
    rw [unbound, Option.isSome_none, if_neg Bool.false_ne_true] at stands
    exact execute_of_fault stands

/-- Words that have the names of a literal, of a number in floating-point form, and of neither. -/
def numbered : Interpreter :=
  .new (.ofList [.define "-07" "1 1", .define "1e" "2", .define "9x" "3"]) 8 .space

/-- Only the last of these words can be reached. A number below the least one is refused for that,
without a word of its name. -/
theorem execute_numbered :
    numbered.execute "-07" = (.ok (), { numbered with state := numbered.state.push (-7) }) ∧
    numbered.execute "1e" = (.error (.floatUnsupported "1e"), numbered) ∧
    (∀ cause, (numbered.execute "9x").1 ≠ .error (.unreadable "9x" cause)) ∧
    numbered.execute "-9223372036854775809" =
      (.error (.unreadable "-9223372036854775809" .belowRange), numbered) := by
  refine ⟨?_, ?_, ?_, ?_⟩
  · have denoted : (-7 : Int64).toInt = -Nat.ofDigitChars 10 ['0', '7'] 0 := by cbv
    have literal : Decimal.Literal ['-', '0', '7'] (-7 : Int64).toInt := by
      rw [denoted]
      exact .minus (List.cons_ne_nil '0' ['7']) (by simp)
    exact (execute_of_startsNumber numbered "-07" ⟨'-', rfl, rfl⟩).1 (-7) literal
  · refine ((execute_of_startsNumber numbered "1e" ⟨'1', rfl, rfl⟩).2 ?_).1 rfl
    intro n literal
    exact literal.getLast?_ne (c := 'e') rfl rfl
  · refine (((execute_of_startsNumber numbered "9x" ⟨'9', rfl, rfl⟩).2 ?_).2 (by decide)).1
      (.composite (.define "9x" "3")) (by decide) |>.2
    intro n literal
    exact literal.getLast?_ne (c := 'x') rfl rfl
  · refine (((execute_of_startsNumber numbered "-9223372036854775809" ⟨'-', rfl, rfl⟩).2 ?_).2
      (by decide)).2 (by decide)
    intro n literal
    have denoted : n.toInt = -9223372036854775809 := literal.eq_leading.trans (by cbv)
    have := n.le_toInt
    omega

end Interpreter

end Forth
