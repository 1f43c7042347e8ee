import Mathlib
import Forth.Native.Action
import Forth.Proofs.Splitting

/-!
# Stack effects

Every native word has a stack effect: how many items it takes from the stack and how many it leaves
in their place. The effect is declared apart from what the word does, and is shown as a picture.

A word keeps to its effect. Where items are missing it does nothing at all
(`Native.apply_of_short`), and where it is defined on the items that it takes, it puts as many
others in their place and touches nothing below them (`Native.apply_of_enough`). In between there is
one case, a division by zero, which has taken its operands when it fails
(`Native.apply_of_dividesByZero`).
-/

namespace Forth

/-- The picture of a stack effect shows an `n` for every item that is taken, and, after a dash, one
for every item that is left. -/
theorem Effect.wordsOf_picture (e : Effect) :
    Text.wordsOf e.picture =
      "(" :: (List.replicate e.takes "n" ++ "--" :: (List.replicate e.leaves "n" ++ [")"])) := by
  have words : SplitMode.whitespace.split e.picture =
      ["("] ++ List.replicate e.takes "n" ++ ["--"] ++ List.replicate e.leaves "n" ++ [")"] := by
    apply SplitMode.split_whitespace_intercalate
    intro t member
    simp only [List.mem_append, List.mem_singleton, List.mem_replicate] at member
    rcases member with (((rfl | ⟨-, rfl⟩) | rfl) | ⟨-, rfl⟩) | rfl <;>
      simp [Text.isBlank, Text.blankRanges]
  rw [← SplitMode.split, words]
  simp

namespace Native

/-- What is said where fewer items are found than are needed. A word that needs a single item has
found none. -/
def shortage (needed found : Nat) : Fault :=
  if needed = 1 then .emptyStack else .tooFewItems needed found

/-- The word is to divide, and by zero. -/
def DividesByZero (w : Native) (items : List Int64) : Prop :=
  (w = div ∨ w = mod) ∧ items.head? = some 0

instance (w : Native) (items : List Int64) : Decidable (w.DividesByZero items) :=
  inferInstanceAs (Decidable (_ ∧ _))

variable {w : Native} {s : State} {left right n : Int64} {below : List Int64}

/-! ## The words of arithmetic on their operands -/

section

variable (items : s.ints.toList = right :: left :: below)
include items

theorem apply_add : add.apply s = .ok () { s with ints := .ofList ((left + right) :: below) } := by
  rw [apply, binary_of_two items]

theorem apply_sub : sub.apply s = .ok () { s with ints := .ofList ((left - right) :: below) } := by
  rw [apply, binary_of_two items]

theorem apply_mul : mul.apply s = .ok () { s with ints := .ofList ((left * right) :: below) } := by
  rw [apply, binary_of_two items]

theorem apply_div (nonzero : right ≠ 0) :
    div.apply s = .ok () { s with ints := .ofList ((left / right) :: below) } := by
  rw [apply, binary_of_two items, divide, if_neg nonzero]

theorem apply_mod (nonzero : right ≠ 0) :
    mod.apply s = .ok () { s with ints := .ofList ((left % right) :: below) } := by
  rw [apply, binary_of_two items, divide, if_neg nonzero]

end

/-! ## Words and their effects -/

/-- Where items are missing, a word fails and has done nothing. -/
theorem apply_of_short (short : s.ints.toList.length < w.effect.takes) :
    w.apply s = .error (shortage w.effect.takes s.ints.toList.length) s := by
  have empty (one : s.ints.toList.length < 1) : s.ints.toList = [] :=
    List.length_eq_zero_iff.1 (Nat.lt_one_iff.1 one)
  cases w with
  | bye => cases short
  | dotS => cases short
  | dot => exact Action.bind_of_error (Action.pop_of_nil (empty short))
  | negate => exact unary_of_nil (empty short)
  | abs => exact unary_of_nil (empty short)
  | add | sub | mul | div | mod =>
    rw [← s.ints.size_eq] at short ⊢
    rw [apply]
    exact binary_of_short short

/-- A division by zero fails when its operands are gone. -/
theorem apply_of_dividesByZero (enough : w.effect.takes ≤ s.ints.toList.length)
    (zero : w.DividesByZero s.ints.toList) :
    w.apply s =
      .error (.divisionByZero w.name) { s with ints := .ofList (s.ints.toList.drop 2) } := by
  obtain ⟨divides, top⟩ := zero
  have two : w.effect.takes = 2 := by rcases divides with rfl | rfl <;> rfl
  obtain ⟨right, left, below, items⟩ := exists_two (two ▸ enough)
  obtain rfl : right = 0 := by simpa [items] using top
  rw [items]
  rcases divides with rfl | rfl
  · exact binary_of_two items
  · exact binary_of_two items

/-- Where a word has what it needs, it replaces that and nothing else. -/
theorem apply_of_enough (enough : w.effect.takes ≤ s.ints.toList.length)
    (defined : ¬ w.DividesByZero s.ints.toList) :
    ∃ results, results.length = w.effect.leaves ∧
      w.apply s = .ok ()
        ⟨.ofList (results ++ s.ints.toList.drop w.effect.takes), s.floats,
          (w.report? s).or s.value, if w = bye then .shutdown else s.status⟩ := by
  cases w with
  | bye | dotS =>
    refine ⟨[], rfl, ?_⟩
    rw [List.nil_append, effect, List.drop_zero, Stack.ofList_toList]
    rfl
  | dot =>
    match items : s.ints.toList with
    | [] => simp [items, effect] at enough
    | n :: below =>
      have top : dot.report? s = some (.integer n) := by
        rw [report?, Stack.peek?, items]
        rfl
      rw [top]
      exact ⟨[], rfl, Action.bind_of_ok (Action.pop_of_cons items)⟩
  | negate | abs =>
    match items : s.ints.toList with
    | [] => simp [items, effect] at enough
    | n :: below => exact ⟨[_], rfl, unary_of_cons items⟩
  | add =>
    obtain ⟨right, left, below, items⟩ := exists_two enough
    exact ⟨[left + right], rfl, items ▸ apply_add items⟩
  | sub =>
    obtain ⟨right, left, below, items⟩ := exists_two enough
    exact ⟨[left - right], rfl, items ▸ apply_sub items⟩
  | mul =>
    obtain ⟨right, left, below, items⟩ := exists_two enough
    exact ⟨[left * right], rfl, items ▸ apply_mul items⟩
  | div =>
    obtain ⟨right, left, below, items⟩ := exists_two enough
    have nonzero : right ≠ 0 := by simpa [DividesByZero, items] using defined
    exact ⟨[left / right], rfl, items ▸ apply_div items nonzero⟩
  | mod =>
    obtain ⟨right, left, below, items⟩ := exists_two enough
    have nonzero : right ≠ 0 := by simpa [DividesByZero, items] using defined
    exact ⟨[left % right], rfl, items ▸ apply_mod items nonzero⟩

/-- Every native word keeps to its stack effect, and fails without a trace where it cannot.

The effect is what the picture shows. With fewer items than it takes, a word fails for their number
and leaves the state as it was. A division by zero fails too, and is left without its two operands.
Otherwise the word succeeds: it has put as many items as its effect says in the place of those that
it takes and left the ones below alone, the value is the one that the word reports, if it reports
any, and the status has changed if the word is `bye`. Nothing else is different. -/
theorem apply_keeps_to_effect (w : Native) (s : State) :
    Text.wordsOf w.effect.picture =
      "(" :: (List.replicate w.effect.takes "n" ++
        "--" :: (List.replicate w.effect.leaves "n" ++ [")"])) ∧
    (s.ints.toList.length < w.effect.takes →
      w.apply s = .error (shortage w.effect.takes s.ints.toList.length) s) ∧
    (w.effect.takes ≤ s.ints.toList.length → w.DividesByZero s.ints.toList →
      w.apply s =
        .error (.divisionByZero w.name) { s with ints := .ofList (s.ints.toList.drop 2) }) ∧
    (w.effect.takes ≤ s.ints.toList.length → ¬ w.DividesByZero s.ints.toList →
      ∃ results, results.length = w.effect.leaves ∧
        w.apply s = .ok ()
          ⟨.ofList (results ++ s.ints.toList.drop w.effect.takes), s.floats,
            (w.report? s).or s.value, if w = bye then .shutdown else s.status⟩) :=
  ⟨w.effect.wordsOf_picture, apply_of_short, apply_of_dividesByZero, apply_of_enough⟩

/-- A state with these items on its stack, top first. -/
def holding (items : List Int64) : State := { State.initial with ints := .ofList items }

/-- One division, on a single item, by zero and by two. -/
theorem apply_keeps_to_effect_div :
    div.apply (holding [4]) = .error (.tooFewItems 2 1) (holding [4]) ∧
    div.apply (holding [0, 9, 4]) = .error (.divisionByZero "/") (holding [4]) ∧
    ∃ results, results.length = 1 ∧
      div.apply (holding [2, 9, 4]) = .ok () (holding (results ++ [4])) :=
  ⟨(apply_keeps_to_effect div (holding [4])).2.1 (by decide),
    (apply_keeps_to_effect div (holding [0, 9, 4])).2.2.1 (by decide) (by decide),
    (apply_keeps_to_effect div (holding [2, 9, 4])).2.2.2 (by decide) (by decide)⟩

end Native

end Forth
