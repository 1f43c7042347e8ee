import Mathlib
import Forth.Proofs.Literals
import Forth.Proofs.Splitting

/-!
# Summaries read back

The summary of a stack shows its size between angle brackets and, if there are any, its items after
a mark, separated by commas and from the top down. A reader who knows no more than that can tell the
size (`Summary.sizeText_summary`) and the items (`Summary.tokens_summary`).

The items are shown as tokens: an integer, written in decimal, is pushed whatever the dictionary
holds (`Interpreter.execute_toString`). So a stack is had back from its summary by executing what is
shown, the top item last (`Interpreter.evalTokens_map_toString`).
-/

namespace Forth

namespace Summary

/-! ## Reading a summary -/

/-- What is between the first pair of angle brackets. -/
def sizeText (summary : String) : String :=
  .ofList (((summary.toList.dropWhile (· != '<')).drop 1).takeWhile (· != '>'))

/-- What the items are announced with. -/
def mark : List Char := ['T', 'o', 'p', '-', '-', '>']

/-- What comes after the first mark, if there is one. -/
def afterMark? : List Char → Option (List Char)
  | [] => none
  | c :: cs =>
    if mark.isPrefixOf (c :: cs) then some ((c :: cs).drop mark.length) else afterMark? cs

/-- The items, cut apart at the commas. -/
def tokens (summary : String) : List Token :=
  match afterMark? summary.toList with
  | none => []
  | some items => (items.splitOn ',').map String.ofList

variable {front items : List Char} {ints : Stack Int64}

/-- A mark begins with a character that may not come before it. -/
theorem afterMark?_append (plain : 'T' ∉ front) :
    afterMark? (front ++ items) = afterMark? items := by
  induction front with
  | nil => rfl
  | cons c front ih =>
    obtain ⟨other, later⟩ := not_or.1 (List.mem_cons.not.1 plain)
    have noMark : mark.isPrefixOf (c :: (front ++ items)) = false := by
      rw [mark, List.isPrefixOf, beq_false_of_ne other, Bool.false_and]
    rw [List.cons_append, afterMark?, noMark, if_neg Bool.false_ne_true, ih later]

theorem afterMark?_mark (items : List Char) : afterMark? (mark ++ items) = some items := rfl

/-! ## Writing a summary -/

/-- The part of a summary that announces and shows the items. -/
def shown (ints : Stack Int64) : List Char :=
  if ints.toList = [] then []
  else ' ' :: ' ' :: (mark ++ [','].intercalate ((ints.toList.map toString).map String.toList))

theorem toList_summary (ints : Stack Int64) :
    ints.summary.toList = '<' :: (Nat.toDigits 10 ints.toList.length ++ '>' :: shown ints) := by
  have size : s!"<{ints.size}>".toList = '<' :: (Nat.toDigits 10 ints.toList.length ++ ['>']) := by
    rw [ints.size_eq]
    simp [toString]
  rw [Stack.summary, shown]
  by_cases empty : ints.toList = []
  · rw [if_pos ((Stack.isEmpty_iff ints).2 empty), if_pos empty, String.append_empty, size]
  · have full : ¬ ints.isEmpty = true := mt (Stack.isEmpty_iff ints).1 empty
    rw [if_neg full, if_neg empty, String.toList_append, size, String.toList_append,
      String.toList_intercalate]
    simp [mark]

theorem sizeText_summary (ints : Stack Int64) :
    sizeText ints.summary = toString ints.toList.length := by
  have digits : ∀ c ∈ Nat.toDigits 10 ints.toList.length, (c != '>') = true := by
    intro c digit
    rw [bne_iff_ne]
    rintro rfl
    cases Decimal.isDigit_of_mem_toDigits digit
  have size : (Nat.toDigits 10 ints.toList.length ++ '>' :: shown ints).takeWhile (· != '>') =
      Nat.toDigits 10 ints.toList.length := by
    rw [List.takeWhile_append_of_pos digits]
    exact List.append_nil _
  apply String.toList_injective
  rw [sizeText, toList_summary, String.toList_ofList]
  exact size.trans Nat.toList_repr.symm

theorem afterMark?_summary (ints : Stack Int64) :
    afterMark? ints.summary.toList =
      if ints.toList = [] then none
      else some ([','].intercalate ((ints.toList.map toString).map String.toList)) := by
  have digits : 'T' ∉ Nat.toDigits 10 ints.toList.length := by
    intro digit
    cases Decimal.isDigit_of_mem_toDigits digit
  rw [toList_summary, shown]
  split
  · have plain : 'T' ∉ '<' :: (Nat.toDigits 10 ints.toList.length ++ ['>']) := by simp [digits]
    have notFound := (afterMark?_append plain : afterMark? (_ ++ []) = _)
    rwa [List.append_nil] at notFound
  · have plain : 'T' ∉ '<' :: (Nat.toDigits 10 ints.toList.length ++ ['>', ' ', ' ']) := by
      simp [digits]
    have found := (afterMark?_append plain).trans
      (afterMark?_mark ([','].intercalate ((ints.toList.map toString).map String.toList)))
    rwa [List.cons_append, List.append_assoc] at found

/-- The items of a summary are the items of the stack. -/
theorem tokens_summary (ints : Stack Int64) : tokens ints.summary = ints.toList.map toString := by
  rw [tokens, afterMark?_summary]
  by_cases empty : ints.toList = []
  · rw [if_pos empty, empty]
    rfl
  · have apart : ∀ piece ∈ (ints.toList.map toString).map String.toList, ',' ∉ piece := by
      intro piece member comma
      obtain ⟨_, written, rfl⟩ := List.mem_map.1 member
      obtain ⟨n, -, rfl⟩ := List.mem_map.1 written
      cases Decimal.startsNumber_of_mem_toString comma
    rw [if_neg empty]
    apply SplitMode.eq_of_map_toList
    simp only [SplitMode.map_toList_ofList]
    exact List.splitOn_intercalate ',' apart (by simpa using empty)

end Summary

/-! ## The items as tokens -/

/-- No two integers are written alike. -/
theorem Decimal.toString_injective : Function.Injective (toString : Int64 → String) := by
  intro m n same
  have read : (Except.ok m : Except Decimal.Fault Int64) = .ok n := by
    rw [← readInt64_toString m, ← readInt64_toString n, same]
  injection read

theorem Dictionary.meaning_toString (d : Dictionary) (n : Int64) :
    d.meaning (toString n) = .number n := by
  have starts : Token.StartsNumber (toString n) := by
    obtain ⟨c, cs, written⟩ := List.exists_cons_of_ne_nil (Decimal.toList_toString_ne_nil n)
    refine ⟨c, by rw [written]; rfl, ?_⟩
    exact Decimal.startsNumber_of_mem_toString (by rw [written]; exact List.mem_cons_self)
  have integral : Token.isFloat (toString n) = false := by
    rw [Token.isFloat, beq_eq_false_iff_ne]
    intro last
    cases Decimal.startsNumber_of_mem_toString (List.mem_of_getLast? last)
  simp only [meaning, kind_of_startsNumber starts, integral, Decimal.readInt64_toString,
    Bool.false_eq_true, if_false]

namespace Interpreter

/-- The decimal text of an integer pushes that integer, in any session. -/
theorem execute_toString (i : Interpreter) (n : Int64) :
    i.execute (toString n) = (.ok (), { i with state := i.state.push n }) :=
  execute_of_number (i.dictionary.meaning_toString n)

/-- Integers one after the other are pushed one on top of the other. -/
theorem evalTokens_map_toString (i : Interpreter) (ns : List Int64)
    (running : i.state.status = .running) :
    i.evalTokens (ns.map toString) =
      (.completed i.state.value,
        { i with
          state := { i.state with ints := .ofList (ns.reverse ++ i.state.ints.toList) } }) := by
  induction ns generalizing i with
  | nil => simp [evalTokens]
  | cons n ns ih =>
    have goesOn : (i.state.push n).isShutdown = false := State.isShutdown_eq_false_iff.2 running
    rw [List.map_cons, evalTokens, execute_toString]
    simp only [goesOn, Bool.false_eq_true, if_false]
    rw [ih { i with state := i.state.push n } running]
    simp [State.push]

end Interpreter

namespace Summary

/-- A stack can be had back from its summary.

The summary shows the size in decimal, and has a part with the items exactly if there are any.
Executed one after the other, the last one first, the items that are shown make the same stack again
in any session that goes on and has nothing on its stack, whatever its words and its limit, and make
no other difference. So stacks with the same summary are equal; and the decimal text of any integer
is a token that pushes this integer and does nothing else. -/
theorem summary_reads_back (ints : Stack Int64) :
    sizeText ints.summary = toString ints.toList.length ∧
    ((afterMark? ints.summary.toList).isSome = true ↔ ints.toList ≠ []) ∧
    (∀ i : Interpreter, i.state.status = .running → i.state.ints = .empty →
      i.evalTokens (tokens ints.summary).reverse =
        (.completed i.state.value, { i with state := { i.state with ints } })) ∧
    (∀ other : Stack Int64, other.summary = ints.summary → other = ints) ∧
    ∀ (i : Interpreter) (n : Int64),
      i.execute (toString n) = (.ok (), { i with state := i.state.push n }) := by
  refine ⟨sizeText_summary ints, ?_, ?_, ?_, fun i => i.execute_toString⟩
  · rw [afterMark?_summary]
    by_cases empty : ints.toList = [] <;> simp [empty]
  · intro i running empty
    rw [tokens_summary, ← List.map_reverse, i.evalTokens_map_toString _ running, empty]
    simp
  · intro other same
    have items : other.toList.map toString = ints.toList.map toString := by
      rw [← tokens_summary, ← tokens_summary, same]
    exact Stack.ext (List.map_injective_iff.2 Decimal.toString_injective items)

/-- A session in which a word has the name of a number, and nothing may be expanded. -/
def misleading : Interpreter := .new (.ofList [.define "7" "bye"]) 0 .whitespace

/-- The least integer and one below it. -/
theorem summary_reads_back_least :
    let ints : Stack Int64 := .ofList [Int64.minValue, 7]
    tokens ints.summary = ["-9223372036854775808", "7"] ∧
    misleading.evalTokens ["7", "-9223372036854775808"] =
      (.completed none, { misleading with state := { misleading.state with ints } }) := by
  intro ints
  have shown : tokens ints.summary = ["-9223372036854775808", "7"] := by decide
  have executed := (summary_reads_back ints).2.2.1 misleading rfl rfl
  rw [shown] at executed
  exact ⟨shown, executed⟩

end Summary

end Forth
