/-!
# Blank characters and blank-separated words

The blank characters are those with the Unicode property `White_Space`. A text is cut at
every blank, and the pieces that hold something are its words.

Everything about `words` follows from one equation, `words_append_blank`: a blank anywhere
in a text separates the words before it from the words after it.
-/

namespace Forth.Text

/-- The ranges of code points with the property `White_Space`, ends included. -/
def blankRanges : List (Nat × Nat) :=
  [(0x09, 0x0D), (0x20, 0x20), (0x85, 0x85), (0xA0, 0xA0), (0x1680, 0x1680),
    (0x2000, 0x200A), (0x2028, 0x2029), (0x202F, 0x202F), (0x205F, 0x205F), (0x3000, 0x3000)]

def isBlank (c : Char) : Bool :=
  blankRanges.any fun (low, high) => low ≤ c.toNat && c.toNat ≤ high

/-- The longest runs of characters that are not blank, in order. -/
def words (cs : List Char) : List (List Char) :=
  (cs.splitOnP isBlank).filter fun w => !w.isEmpty

/-- The words of a text, as texts. -/
def wordsOf (s : String) : List String :=
  (words s.toList).map String.ofList

/-- A text without a word in it. -/
def isBlankText (s : String) : Bool :=
  s.toList.all isBlank

@[simp] theorem words_nil : words [] = [] := by
  simp [words, List.splitOnP_nil]

theorem words_append_blank {c : Char} (hc : isBlank c = true) (xs ys : List Char) :
    words (xs ++ c :: ys) = words xs ++ words ys := by
  simp [words, List.splitOnP_append_cons xs ys hc]

theorem words_cons_blank {c : Char} (hc : isBlank c = true) (cs : List Char) :
    words (c :: cs) = words cs := by
  simpa using words_append_blank hc [] cs

theorem words_blanks_append {gap : List Char} (hgap : ∀ c ∈ gap, isBlank c = true)
    (cs : List Char) : words (gap ++ cs) = words cs := by
  induction gap with
  | nil => rfl
  | cons c gap ih =>
    obtain ⟨hc, hgap⟩ := List.forall_mem_cons.1 hgap
    rw [List.cons_append, words_cons_blank hc, ih hgap]

/-- Any number of blanks separate the words, except none. -/
theorem words_append_blanks {gap : List Char} (hne : gap ≠ [])
    (hgap : ∀ c ∈ gap, isBlank c = true) (xs ys : List Char) :
    words (xs ++ gap ++ ys) = words xs ++ words ys := by
  cases gap with
  | nil => exact absurd rfl hne
  | cons c gap =>
    obtain ⟨hc, hgap⟩ := List.forall_mem_cons.1 hgap
    rw [List.append_assoc, List.cons_append, words_append_blank hc, words_blanks_append hgap]

/-- A text that holds no blank is a single word, or empty. -/
theorem words_of_no_blank {cs : List Char} (hne : cs ≠ []) (h : ∀ c ∈ cs, isBlank c = false) :
    words cs = [cs] := by
  simp [words, List.splitOnP_eq_singleton h, hne]

/-- The pieces of a list that is cut at some elements hold the others. -/
theorem of_mem_splitOnP {α : Type} {p : α → Bool} {xs piece : List α} (h : piece ∈ xs.splitOnP p) :
    ∀ x ∈ piece, x ∈ xs ∧ p x = false := by
  induction xs generalizing piece with
  | nil =>
    rw [List.splitOnP_nil, List.mem_singleton] at h
    simp [h]
  | cons y xs ih =>
    have later {piece : List α} (h : piece ∈ xs.splitOnP p) :
        ∀ x ∈ piece, x ∈ y :: xs ∧ p x = false :=
      fun x member => ⟨List.mem_cons_of_mem y (ih h x member).1, (ih h x member).2⟩
    rw [List.splitOnP_cons_eq_if_modifyHead] at h
    by_cases cut : p y = true
    · rw [if_pos cut] at h
      rcases List.mem_cons.1 h with rfl | h
      · simp
      · exact later h
    · rw [if_neg cut] at h
      -- The element goes to the first piece, and there is one.
      obtain ⟨first, others, pieces⟩ := List.exists_cons_of_ne_nil (List.splitOnP_ne_nil p xs)
      rw [pieces, List.modifyHead_cons] at h
      rw [pieces] at later
      rcases List.mem_cons.1 h with rfl | h
      · exact List.forall_mem_cons.2
          ⟨⟨List.mem_cons_self, by simpa using cut⟩, later List.mem_cons_self⟩
      · exact later (List.mem_cons_of_mem _ h)

theorem of_mem_words {cs w : List Char} (h : w ∈ words cs) : ∀ c ∈ w, c ∈ cs ∧ isBlank c = false :=
  of_mem_splitOnP (List.mem_filter.1 h).1

end Forth.Text
