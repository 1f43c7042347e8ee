import Forth.Execution.Step

/-!
# Why execution ends

Words may mention themselves and each other, so no frame alone gets shorter for good. What
does get smaller with every step is `weight`: a token costs as much as everything that can
come of it within the depth that is left (`cost`), and that is more than all the tokens of
any body that takes its place.
-/

namespace Forth

namespace Frame

/-- How many tokens of the body are still to come. -/
def remaining (f : Frame) : Nat := f.word.tokens.size - f.next

theorem remaining_eq_of_token? {f : Frame} {t : Token} (h : f.token? = some t) :
    f.remaining = f.advance.remaining + 1 := by
  obtain ⟨h, -⟩ := Array.getElem?_eq_some_iff.1 h
  simp only [remaining, word_advance, next_advance]
  omega

end Frame

namespace Dictionary

/-- The number of tokens of the longest body. -/
def longest (d : Dictionary) : Nat :=
  (d.composites.map fun w => w.tokens.size).foldr max 0

theorem size_le_longest {d : Dictionary} {w : Composite} (h : w ∈ d.composites) :
    w.tokens.size ≤ d.longest := by
  unfold longest
  generalize d.composites = ws at h
  induction ws with
  | nil => simp at h
  | cons v vs ih =>
    simp only [List.map_cons, List.foldr_cons]
    rcases List.mem_cons.1 h with rfl | h
    · exact Nat.le_max_left _ _
    · exact Nat.le_trans (ih h) (Nat.le_max_right _ _)

end Dictionary

namespace Execution

/-- What a token may cost when `depth` more expansions fit: as many bodies of the longest
length as there can be, each token of them and each end of a body counting one. -/
def cost (longest : Nat) : Nat → Nat
  | 0 => 1
  | depth + 1 => longest * cost longest depth + 2

theorem cost_pos (longest depth : Nat) : 0 < cost longest depth := by
  cases depth <;> simp [cost]

/-- What the frames may still cost, the top one standing first. -/
def weight (longest limit : Nat) : List Frame → Nat
  | [] => 0
  | f :: fs => f.remaining * cost longest (limit - (fs.length + 1)) + 1 + weight longest limit fs

theorem weight_of_token? {longest limit : Nat} {f : Frame} {fs : List Frame} {t : Token}
    (h : f.token? = some t) :
    weight longest limit (f :: fs) =
      cost longest (limit - (fs.length + 1)) + weight longest limit (f.advance :: fs) := by
  simp only [weight, Frame.remaining_eq_of_token? h, Nat.add_mul]
  omega

/-- A body costs less than the token that it takes the place of. -/
theorem weight_start_lt {longest limit : Nat} {fs : List Frame} {w : Composite}
    (short : w.tokens.size ≤ longest) (deeper : fs.length < limit) :
    weight longest limit (.start w :: fs) <
      cost longest (limit - fs.length) + weight longest limit fs := by
  obtain ⟨k, hk⟩ : ∃ k, limit - fs.length = k + 1 := ⟨limit - fs.length - 1, by omega⟩
  have hk' : limit - (fs.length + 1) = k := by omega
  have := Nat.mul_le_mul_right (cost longest k) short
  simp only [weight, Frame.remaining, Frame.word_start, Frame.next_start, Nat.sub_zero, hk, hk',
    cost]
  omega

theorem weight_lt_of_step {d : Dictionary} {limit : Nat} {frames frames' : Stack Frame}
    {s s' : State} (h : step d limit frames s = some (.ok frames' s')) :
    weight d.longest limit frames'.toList < weight d.longest limit frames.toList := by
  obtain ⟨f, below, popped, -, ⟨-, rfl, -⟩ | ⟨t, next, dispatched⟩⟩ := cases_of_step h
  · rw [Stack.toList_of_pop? popped, weight]
    omega
  · have pos := cost_pos d.longest (limit - (below.toList.length + 1))
    rw [Stack.toList_of_pop? popped, weight_of_token? next]
    rcases frames_of_dispatch dispatched with rfl | ⟨w, hw, deeper, rfl⟩
    · rw [Stack.toList_push]
      omega
    · have short := Dictionary.size_le_longest
        (Dictionary.mem_composites (Dictionary.find?_of_meaning hw))
      simp only [Stack.size_push, below.size_eq] at deeper
      exact weight_start_lt short (by simpa using deeper)

end Execution

end Forth
