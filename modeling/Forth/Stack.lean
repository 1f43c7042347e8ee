/-!
# Stacks

A last-in-first-out stack that knows its size. The meaning of a stack is the list of its
elements from the top down, `toList`; the size is carried along so that asking for it does
not walk the list. Two stacks with the same elements are equal (`Stack.ext`).
-/

namespace Forth

structure Stack (α : Type) where
  /-- The elements, top first. -/
  toList : List α
  /-- How many there are. -/
  size : Nat
  size_eq : size = toList.length
  deriving DecidableEq

namespace Stack

variable {α : Type}

@[ext] theorem ext {s t : Stack α} (h : s.toList = t.toList) : s = t := by
  obtain ⟨xs, n, hn⟩ := s
  obtain ⟨ys, m, hm⟩ := t
  subst h hn hm
  rfl

/-- The stack with the given elements, top first. -/
def ofList (xs : List α) : Stack α := ⟨xs, xs.length, rfl⟩

def empty : Stack α := ofList []

instance : Inhabited (Stack α) := ⟨empty⟩

def push (s : Stack α) (a : α) : Stack α :=
  ⟨a :: s.toList, s.size + 1, by simp [s.size_eq]⟩

/-- The top element and the stack below it. -/
def pop? (s : Stack α) : Option (α × Stack α) :=
  match h : s.toList with
  | [] => none
  | a :: rest => some (a, ⟨rest, s.size - 1, by simp [s.size_eq, h]⟩)

def peek? (s : Stack α) : Option α := s.toList.head?

def isEmpty (s : Stack α) : Bool := s.size == 0

/-- The stack without its elements. -/
def clear (_ : Stack α) : Stack α := empty

/-- A walk down a stack, with the elements that it has not come to. -/
structure Walk (α : Type) where
  rest : List α

/-- A walk that starts at the top. -/
def walk (s : Stack α) : Walk α := ⟨s.toList⟩

namespace Walk

/-- The next element, and the walk after it. -/
def next? : Walk α → Option (α × Walk α)
  | ⟨[]⟩ => none
  | ⟨a :: rest⟩ => some (a, ⟨rest⟩)

theorem length_next? {w w' : Walk α} {a : α} (h : w.next? = some (a, w')) :
    w'.rest.length < w.rest.length := by
  unfold next? at h
  split at h
  · cases h
  · cases h
    simp

set_option linter.unusedVariables false in
/-- The elements that are met by going on to the bottom. -/
def toList (w : Walk α) : List α :=
  match h : w.next? with
  | none => []
  | some (a, w') => a :: w'.toList
termination_by w.rest.length
decreasing_by exact length_next? h

end Walk

@[simp] theorem toList_ofList (xs : List α) : (ofList xs).toList = xs := rfl

@[simp] theorem ofList_toList (s : Stack α) : ofList s.toList = s := ext rfl

@[simp] theorem toList_empty : (empty : Stack α).toList = [] := rfl

@[simp] theorem toList_push (s : Stack α) (a : α) : (s.push a).toList = a :: s.toList := rfl

@[simp] theorem toList_clear (s : Stack α) : s.clear.toList = [] := rfl

@[simp] theorem size_empty : (empty : Stack α).size = 0 := rfl

@[simp] theorem size_push (s : Stack α) (a : α) : (s.push a).size = s.size + 1 := rfl

/-- Popping is taking the head of the list. -/
theorem pop?_eq (s : Stack α) :
    s.pop? = match s.toList with
      | [] => none
      | a :: rest => some (a, ofList rest) := by
  unfold pop?
  split
  next h => rw [h]
  next a rest h =>
    simp only [h]
    exact congrArg (fun t => some (a, t)) (ext rfl)

@[simp] theorem pop?_empty : (empty : Stack α).pop? = none := rfl

@[simp] theorem pop?_push (s : Stack α) (a : α) : (s.push a).pop? = some (a, s) := by
  simp [pop?_eq]

theorem toList_of_pop? {s t : Stack α} {a : α} (h : s.pop? = some (a, t)) :
    s.toList = a :: t.toList := by
  rw [pop?_eq] at h
  split at h
  · simp at h
  · next hs =>
    obtain ⟨rfl, rfl⟩ := by simpa using h
    simpa using hs

theorem pop?_eq_none_iff (s : Stack α) : s.pop? = none ↔ s.toList = [] := by
  rw [pop?_eq]
  cases s.toList with
  | nil => exact iff_of_true rfl rfl
  | cons a rest => exact iff_of_false nofun nofun

/-- A walk meets every element. -/
@[simp] theorem toList_walk (s : Stack α) : s.walk.toList = s.toList := by
  unfold walk
  induction s.toList with
  | nil => simp [Walk.toList, Walk.next?]
  | cons a rest ih => simp [Walk.toList, Walk.next?, ih]

theorem isEmpty_iff (s : Stack α) : s.isEmpty = true ↔ s.toList = [] := by
  simp [isEmpty, s.size_eq]

end Stack

end Forth
