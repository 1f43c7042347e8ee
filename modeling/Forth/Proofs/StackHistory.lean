import Forth.Stack

/-!
# Histories of a stack

A stack keeps its elements and, apart from them, their number. Whether the two fit shows only later:
a stack that lost count would still give the right element when it is popped, and the wrong size
when it is asked for. So a stack is compared with a plain list over whole histories of operations.

The list is the discipline itself: elements come and go at its head, and it has no other part. One
operation on a stack is that operation on the list of its elements (`perform_onList`), hence so is
any sequence of them (`after_onList`, `views_onList`), and all that can be seen of a stack on the
way is what the list shows. A stack that has been cleared has forgotten its history.
-/

namespace Forth.Stack

variable {α : Type}

/-- What a stack can be asked to do. -/
inductive Op (α : Type) where
  | push (a : α)
  | pop
  | peek
  /-- Walk down to the bottom. -/
  | iter
  | clear
  deriving DecidableEq

/-- What a stack answers. -/
inductive Reply (α : Type) where
  | done
  | item (a : α)
  | items (as : List α)
  /-- The stack had no element to answer with. -/
  | emptyStack
  deriving DecidableEq

/-- What a stack answers to an operation, and the stack after it. -/
def perform (s : Stack α) : Op α → Reply α × Stack α
  | .push a => (.done, s.push a)
  | .pop =>
    match s.pop? with
    | none => (.emptyStack, s)
    | some (a, rest) => (.item a, rest)
  | .peek =>
    match s.peek? with
    | none => (.emptyStack, s)
    | some a => (.item a, s)
  | .iter => (.items s.walk.toList, s)
  | .clear => (.done, s.clear)

/-- What a list that is used last in, first out answers to an operation, and the list after it. -/
def Op.onList : Op α → List α → Reply α × List α
  | push a, live => (.done, a :: live)
  | pop, [] => (.emptyStack, [])
  | pop, a :: live => (.item a, live)
  | peek, [] => (.emptyStack, [])
  | peek, a :: live => (.item a, a :: live)
  | iter, live => (.items live, live)
  | clear, _ => (.done, [])

/-- What is seen of a stack when it has done an operation. -/
structure View (α : Type) where
  reply : Reply α
  size : Nat
  isEmpty : Bool
  deriving DecidableEq

/-- The stack after a history of operations. -/
def after (s : Stack α) (ops : List (Op α)) : Stack α := ops.foldl (fun s op => (s.perform op).2) s

/-- What is seen of a stack in the course of a history. -/
def views (s : Stack α) : List (Op α) → List (View α)
  | [] => []
  | op :: ops =>
    let next := (s.perform op).2
    ⟨(s.perform op).1, next.size, next.isEmpty⟩ :: next.views ops

/-- The elements that are live after a history that started with none, the last one pushed first. -/
def live (ops : List (Op α)) : List α := ops.foldl (fun xs op => (op.onList xs).2) []

/-- What a list shows in the course of a history. -/
def viewsOnList (xs : List α) : List (Op α) → List (View α)
  | [] => []
  | op :: ops =>
    let next := (op.onList xs).2
    ⟨(op.onList xs).1, next.length, next.isEmpty⟩ :: viewsOnList next ops

theorem isEmpty_eq (s : Stack α) : s.isEmpty = s.toList.isEmpty := by
  rw [Bool.eq_iff_iff, isEmpty_iff, List.isEmpty_iff]

/-- One operation on a stack is that operation on the list of its elements. -/
theorem perform_onList (s : Stack α) (op : Op α) :
    s.perform op = ((op.onList s.toList).1, .ofList (op.onList s.toList).2) := by
  cases op with
  | push a => exact Prod.ext rfl (ext rfl)
  | pop =>
    rw [perform, pop?_eq]
    cases items : s.toList with
    | nil => exact Prod.ext rfl (ext items)
    | cons a rest => rfl
  | peek =>
    rw [perform, peek?]
    cases items : s.toList with
    | nil => exact Prod.ext rfl (ext items)
    | cons a rest => exact Prod.ext rfl (ext items)
  | iter =>
    rw [perform, toList_walk]
    exact Prod.ext rfl (ext rfl)
  | clear => rfl

/-- A history leaves the elements that it leaves on the list. -/
theorem after_onList (s : Stack α) (ops : List (Op α)) :
    s.after ops = .ofList (ops.foldl (fun xs op => (op.onList xs).2) s.toList) := by
  induction ops generalizing s with
  | nil => exact ext rfl
  | cons op ops ih =>
    have stepped : (s.perform op).2.toList = (op.onList s.toList).2 := by rw [perform_onList]; rfl
    calc s.after (op :: ops)
        = (s.perform op).2.after ops := rfl
      _ = .ofList (ops.foldl (fun xs op => (op.onList xs).2) (s.perform op).2.toList) := ih _
      _ = _ := by rw [stepped]; rfl

/-- Nothing is seen of a stack but what the list shows. -/
theorem views_onList (s : Stack α) (ops : List (Op α)) :
    s.views ops = viewsOnList s.toList ops := by
  induction ops generalizing s with
  | nil => rfl
  | cons op ops ih =>
    rw [views, viewsOnList, perform_onList, ih]
    simp only [size_eq, isEmpty_eq, toList_ofList]

/-- Over every history, a new stack is a list that is used last in, first out. It holds the live
elements and no others, knows how many they are, and shows what the list shows at every operation.
An element can be had from it unless none is live: it is the last one pushed of those that are, and
it is gone after `pop` and still there after `peek`, while a refusal changes nothing. A walk meets
the live elements from the top down. After `clear`, what is seen is what a new stack shows. -/
theorem history_as_list (ops : List (Op α)) :
    let s := (empty : Stack α).after ops
    s.toList = live ops ∧ s.size = (live ops).length ∧
    (s.isEmpty = true ↔ live ops = []) ∧
    (empty : Stack α).views ops = viewsOnList [] ops ∧
    (∀ a, s.perform (.push a) = (.done, .ofList (a :: live ops))) ∧
    ((s.perform .pop).1 = .emptyStack ↔ live ops = []) ∧
    s.perform .pop =
      (match live ops with
      | [] => (.emptyStack, s)
      | a :: rest => (.item a, .ofList rest)) ∧
    ((s.perform .peek).1 = .emptyStack ↔ live ops = []) ∧
    s.perform .peek =
      (match live ops with
      | [] => (.emptyStack, s)
      | a :: _ => (.item a, s)) ∧
    s.perform .iter = (.items (live ops), s) ∧
    ∀ more, (s.perform .clear).2.views more = (empty : Stack α).views more := by
  intro s
  have left : s = .ofList (live ops) := after_onList empty ops
  have items : s.toList = live ops := congrArg toList left
  refine ⟨items, ?_, ?_, views_onList empty ops, ?_, ?_, ?_, ?_, ?_, ?_, ?_⟩
  · rw [s.size_eq, items]
  · rw [isEmpty_iff, items]
  · intro a
    rw [perform_onList, items]
    rfl
  · rw [perform_onList, items]
    cases live ops <;> simp [Op.onList]
  · rw [perform_onList, items, left]
    cases live ops <;> rfl
  · rw [perform_onList, items]
    cases live ops <;> simp [Op.onList]
  · rw [perform_onList, items, left]
    cases live ops <;> rfl
  · rw [perform_onList, items, left]
    rfl
  · intro more
    rfl

/-- The count is right after a pop that was refused, and an element pushed before a `clear` never
comes back. -/
example :
    (empty : Stack Nat).views [.pop, .push 1, .push 2, .pop, .peek, .clear, .push 3, .pop, .pop] =
      [⟨.emptyStack, 0, true⟩, ⟨.done, 1, false⟩, ⟨.done, 2, false⟩, ⟨.item 2, 1, false⟩,
        ⟨.item 1, 1, false⟩, ⟨.done, 0, true⟩, ⟨.done, 1, false⟩, ⟨.item 3, 0, true⟩,
        ⟨.emptyStack, 0, true⟩] := by
  decide

end Forth.Stack
