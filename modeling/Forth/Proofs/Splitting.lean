import Mathlib
import Forth.Proofs.Recursion

/-!
# Lines and their tokens

A line is cut at every space, or at every run of blanks. Cutting at spaces loses nothing: the
tokens with a space between them are the line (`SplitMode.intercalate_split_space`). Cutting at
blanks loses the blanks and nothing else (`Text.flatten_words`), and never parts two characters that
stand next to each other (`Text.exists_word_of_adjacent`), since no word reaches over a place where
a blank is on either side (`Text.words_append`).

The two ways come to the same where the blanks of a line are spaces, apart from the empty tokens
(`Text.words_eq_filter_splitOn`), and a line in which spaces are used sparingly has no empty tokens
(`SplitMode.ne_empty_of_mem_split_space`).
-/

namespace Forth

namespace Text

variable {c d : Char} {cs xs ys word : List Char}

/-- The character is part of a word. -/
def isSolid (c : Char) : Bool := !isBlank c

theorem isSolid_iff : isSolid c = true ↔ isBlank c = false := by simp [isSolid]

/-! ## Pieces between separators -/

/-- There is one piece more than there are separators. -/
theorem length_splitOn (c : Char) (cs : List Char) :
    (cs.splitOn c).length = cs.count c + 1 := by
  induction cs with
  | nil => rfl
  | cons d cs ih =>
    rw [List.splitOn_cons_eq_if_modifyHead, List.count_cons]
    split
    · rw [List.length_cons, ih]
    · rw [List.length_modifyHead, ih]

/-- Pieces that are each ended by a separator, and may hold others. -/
theorem splitOn_flatMap (c : Char) (pieces : List (List Char)) :
    (pieces.flatMap (· ++ [c])).splitOn c = pieces.flatMap (·.splitOn c) ++ [[]] := by
  induction pieces with
  | nil => rfl
  | cons piece pieces ih =>
    rw [List.flatMap_cons, List.flatMap_cons, List.append_assoc, List.append_assoc, ← ih]
    simp only [List.splitOn_eq_splitOnP]
    exact List.splitOnP_append_cons _ _ (by simp)

theorem length_flatMap_splitOn (c : Char) (pieces : List (List Char)) :
    (pieces.flatMap (·.splitOn c)).length =
      pieces.length + (pieces.map (List.count c)).sum := by
  induction pieces with
  | nil => rfl
  | cons piece pieces ih =>
    rw [List.flatMap_cons, List.length_append, ih, length_splitOn, List.length_cons,
      List.map_cons, List.sum_cons]
    omega

theorem flatMap_splitOn_of_not_mem {c : Char} {pieces : List (List Char)}
    (h : ∀ piece ∈ pieces, c ∉ piece) : pieces.flatMap (·.splitOn c) = pieces := by
  induction pieces with
  | nil => rfl
  | cons piece pieces ih =>
    obtain ⟨own, others⟩ := List.forall_mem_cons.1 h
    rw [List.flatMap_cons, List.splitOn_eq_singleton own, ih others, List.singleton_append]

/-- The pieces hold all that is no separator, in order. -/
theorem flatten_splitOnP (p : Char → Bool) (cs : List Char) :
    (cs.splitOnP p).flatten = cs.filter fun c => !p c := by
  induction cs with
  | nil => rfl
  | cons c cs ih =>
    rw [List.splitOnP_cons_eq_if_modifyHead, List.filter_cons, ← ih]
    obtain ⟨piece, pieces, cut⟩ := List.exists_cons_of_ne_nil (List.splitOnP_ne_nil p cs)
    cases p c <;> simp [cut]

theorem splitOnP_congr {p q : Char → Bool} (h : ∀ c ∈ cs, p c = q c) :
    cs.splitOnP p = cs.splitOnP q := by
  induction cs with
  | nil => rfl
  | cons c cs ih =>
    obtain ⟨own, others⟩ := List.forall_mem_cons.1 h
    rw [List.splitOnP_cons_eq_if_modifyHead, List.splitOnP_cons_eq_if_modifyHead, own, ih others]

/-! ## Words -/

theorem ne_nil_of_mem_words (h : word ∈ words cs) : word ≠ [] := by
  rw [words, List.mem_filter] at h
  simpa using h.2

/-- The words of a text are the text without its blanks. -/
theorem flatten_words (cs : List Char) : (words cs).flatten = cs.filter isSolid := by
  rw [words, List.flatten_filter_not_isEmpty, flatten_splitOnP]
  rfl

/-- No word reaches over a place where a blank is on either side. -/
theorem words_append
    (h : (∀ c ∈ xs.getLast?, isBlank c = true) ∨ ∀ c ∈ ys.head?, isBlank c = true) :
    words (xs ++ ys) = words xs ++ words ys := by
  rcases h with blank | blank
  · rcases List.eq_nil_or_concat' xs with rfl | ⟨init, c, rfl⟩
    · rfl
    · have cut : isBlank c = true := blank c (by simp)
      rw [List.append_assoc, List.singleton_append, words_append_blank cut,
        words_append_blank cut init [], words_nil, List.append_nil]
  · cases ys with
    | nil => rw [words_nil, List.append_nil, List.append_nil]
    | cons c ys =>
      have cut : isBlank c = true := blank c rfl
      rw [words_append_blank cut, words_cons_blank cut]

/-- A run of characters with a blank or nothing on either side is a word. -/
theorem words_append_run {run : List Char} (nonempty : run ≠ [])
    (solid : ∀ c ∈ run, isBlank c = false) (before : ∀ c ∈ xs.getLast?, isBlank c = true)
    (after : ∀ c ∈ ys.head?, isBlank c = true) :
    words (xs ++ (run ++ ys)) = words xs ++ run :: words ys := by
  rw [words_append (.inl before), words_append (.inr after), words_of_no_blank nonempty solid,
    List.singleton_append]

/-- The run that a text ends in, and what comes before it. -/
theorem exists_run_at_end (xs : List Char) :
    ∃ front run, xs = front ++ run ∧ (∀ c ∈ front.getLast?, isBlank c = true) ∧
      ∀ c ∈ run, isSolid c = true := by
  refine ⟨xs.rdropWhile isSolid, xs.rtakeWhile isSolid, List.rdropWhile_append_rtakeWhile.symm, ?_,
    fun c => List.mem_rtakeWhile_imp⟩
  intro c last
  obtain ⟨full, rfl⟩ := List.mem_getLast?_eq_getLast last
  simpa [isSolid] using List.rdropWhile_last_not isSolid xs full

/-- The run that a text begins with, and what comes after it. -/
theorem exists_run_at_start (ys : List Char) :
    ∃ run back, ys = run ++ back ∧ (∀ c ∈ run, isSolid c = true) ∧
      ∀ c ∈ back.head?, isBlank c = true := by
  refine ⟨ys.takeWhile isSolid, ys.dropWhile isSolid, List.takeWhile_append_dropWhile.symm,
    fun c => List.mem_takeWhile_imp, ?_⟩
  intro c first
  have stopped := List.head?_dropWhile_not isSolid ys
  rw [Option.mem_def.1 first] at stopped
  simpa [isSolid] using stopped

/-- Two characters next to each other, neither of them blank, are in one word, which holds what
comes before and after them up to the next blanks. -/
theorem exists_word_of_adjacent (hc : isBlank c = false) (hd : isBlank d = false)
    (xs ys : List Char) :
    ∃ earlier start rest later,
      words (xs ++ c :: d :: ys) = earlier ++ (start ++ c :: d :: rest) :: later ∧
      earlier.flatten ++ start = xs.filter isSolid ∧
      rest ++ later.flatten = ys.filter isSolid := by
  obtain ⟨front, start, rfl, ends, solidStart⟩ := exists_run_at_end xs
  obtain ⟨rest, back, rfl, solidRest, begins⟩ := exists_run_at_start ys
  refine ⟨words front, start, rest, words back, ?_, ?_, ?_⟩
  · have solid : ∀ e ∈ start ++ c :: d :: rest, isBlank e = false := by
      simp only [List.forall_mem_append, List.forall_mem_cons]
      exact ⟨fun e member => isSolid_iff.1 (solidStart e member), hc, hd,
        fun e member => isSolid_iff.1 (solidRest e member)⟩
    rw [← words_append_run (by simp) solid ends begins]
    simp
  · rw [flatten_words, List.filter_append, List.filter_eq_self.2 solidStart]
  · rw [flatten_words, List.filter_append, List.filter_eq_self.2 solidRest]

/-- Words that are written with a space between them are read back. -/
theorem words_intercalate {ws : List (List Char)}
    (h : ∀ word ∈ ws, word ≠ [] ∧ ∀ c ∈ word, isBlank c = false) :
    words ([' '].intercalate ws) = ws := by
  induction ws with
  | nil => exact words_nil
  | cons word ws ih =>
    obtain ⟨⟨nonempty, solid⟩, others⟩ := List.forall_mem_cons.1 h
    cases ws with
    | nil => rw [List.intercalate_singleton, words_of_no_blank nonempty solid]
    | cons next ws =>
      rw [List.intercalate_cons_cons, List.append_assoc, List.singleton_append,
        words_append_blank (by decide), ih others, words_of_no_blank nonempty solid,
        List.singleton_append]

/-- Where the blanks are spaces, the words are the pieces between the spaces, apart from the empty
ones. -/
theorem words_eq_filter_splitOn (spaces : ∀ c ∈ cs, isBlank c = true → c = ' ') :
    words cs = (cs.splitOn ' ').filter fun piece => !piece.isEmpty := by
  have same : ∀ c ∈ cs, isBlank c = (c == ' ') := by
    intro c member
    by_cases space : c = ' '
    · subst space
      decide
    · have solid : isBlank c = false := by simpa using mt (spaces c member) space
      rw [solid, beq_false_of_ne space]
  rw [words, splitOnP_congr same, List.splitOn_eq_splitOnP]

end Text

/-- The two characters between these texts are next to each other in one token. -/
def Token.Together (tokens : List Token) (before : List Char) (c d : Char) (after : List Char) :
    Prop :=
  ∃ earlier t later start rest, tokens = earlier ++ t :: later ∧
    t.toList = start ++ c :: d :: rest ∧ earlier.flatMap String.toList ++ start = before ∧
    rest ++ later.flatMap String.toList = after

/-- A line that says something, with single spaces inside it and no other blanks. -/
structure SingleSpaced (line : String) : Prop where
  nonempty : line ≠ ""
  first : line.toList.head? ≠ some ' '
  last : line.toList.getLast? ≠ some ' '
  single : ¬ [' ', ' '] <:+: line.toList
  spaces : ∀ c ∈ line.toList, Text.isBlank c = true → c = ' '

namespace SplitMode

variable {line : String} {t : Token} {ts us : List Token}

/-! ## The characters of the tokens -/

theorem map_toList_ofList (pieces : List (List Char)) :
    (pieces.map String.ofList).map String.toList = pieces := by
  have same : String.toList ∘ String.ofList = id := funext fun cs => String.toList_ofList
  rw [List.map_map, same, List.map_id]

theorem map_toList_split_space (line : String) :
    (space.split line).map String.toList = line.toList.splitOn ' ' := map_toList_ofList _

theorem map_toList_split_whitespace (line : String) :
    (whitespace.split line).map String.toList = Text.words line.toList := map_toList_ofList _

/-- Tokens are the same if their characters are. -/
theorem eq_of_map_toList (h : ts.map String.toList = us.map String.toList) : ts = us :=
  List.map_injective_iff.2 (fun _ _ => String.toList_injective) h

/-! ## Cutting at spaces -/

/-- The tokens with single spaces between them give back the line. -/
theorem intercalate_split_space (line : String) : " ".intercalate (space.split line) = line := by
  apply String.toList_injective
  rw [String.toList_intercalate, map_toList_split_space]
  exact List.intercalate_splitOn ' '

theorem length_split_space (line : String) :
    (space.split line).length = line.toList.count ' ' + 1 := by
  rw [← Text.length_splitOn, ← map_toList_split_space, List.length_map]

/-- Tokens without spaces are read back from the line in which a space stands between them. -/
theorem split_space_intercalate (nonempty : ts ≠ []) (h : ∀ t ∈ ts, ' ' ∉ t.toList) :
    space.split (" ".intercalate ts) = ts := by
  apply eq_of_map_toList
  rw [map_toList_split_space, String.toList_intercalate]
  exact List.splitOn_intercalate ' ' (by simpa using h) (by simpa using nonempty)

/-- A line in which spaces are used sparingly has no empty tokens. -/
theorem ne_empty_of_mem_split_space (tidy : SingleSpaced line) (h : t ∈ space.split line) :
    t ≠ "" := by
  rintro rfl
  obtain ⟨before, after, tokens⟩ := List.append_of_mem h
  have whole := intercalate_split_space line
  rw [tokens] at whole
  rcases List.eq_nil_or_concat' before with rfl | ⟨earlier, t, rfl⟩
  · cases after with
    | nil => exact tidy.nonempty (by simp [← whole])
    | cons u later =>
      apply tidy.first
      simp [← whole, String.intercalate_cons_cons]
  · have front : earlier ++ [t] ≠ [] := by simp
    rw [String.intercalate_append_of_ne_nil front (List.cons_ne_nil "" after)] at whole
    cases after with
    | nil =>
      apply tidy.last
      simp [← whole]
    | cons u later =>
      apply tidy.single
      rw [← whole, String.intercalate_cons_cons]
      exact ⟨(" ".intercalate (earlier ++ [t])).toList, (" ".intercalate (u :: later)).toList,
        by simp⟩

/-! ## Cutting at blanks -/

theorem of_mem_split_whitespace (h : t ∈ whitespace.split line) :
    t ≠ "" ∧ ∀ c ∈ t.toList, Text.isBlank c = false := by
  refine ⟨?_, not_separates_of_mem_split h⟩
  rintro rfl
  have member := List.mem_map_of_mem (f := String.toList) h
  rw [map_toList_split_whitespace] at member
  exact Text.ne_nil_of_mem_words member rfl

/-- The tokens hold the line without its blanks. -/
theorem flatMap_toList_split_whitespace (line : String) :
    (whitespace.split line).flatMap String.toList = line.toList.filter Text.isSolid := by
  rw [← Text.flatten_words, ← map_toList_split_whitespace, List.flatMap_def]

theorem together_split_whitespace {c d : Char} {before after : List Char}
    (adjacent : line.toList = before ++ c :: d :: after) (hc : Text.isBlank c = false)
    (hd : Text.isBlank d = false) :
    Token.Together (whitespace.split line) (before.filter Text.isSolid) c d
      (after.filter Text.isSolid) := by
  obtain ⟨earlier, start, rest, later, words, left, right⟩ :=
    Text.exists_word_of_adjacent hc hd before after
  refine ⟨earlier.map String.ofList, String.ofList (start ++ c :: d :: rest),
    later.map String.ofList, start, rest, ?_, String.toList_ofList, ?_, ?_⟩
  · rw [split, Text.wordsOf, adjacent, words, List.map_append, List.map_cons]
  · rw [List.flatMap_def, map_toList_ofList, left]
  · rw [List.flatMap_def, map_toList_ofList, right]

theorem split_whitespace_intercalate
    (h : ∀ t ∈ ts, t ≠ "" ∧ ∀ c ∈ t.toList, Text.isBlank c = false) :
    whitespace.split (" ".intercalate ts) = ts := by
  apply eq_of_map_toList
  rw [map_toList_split_whitespace, String.toList_intercalate]
  refine Text.words_intercalate ?_
  intro word member
  obtain ⟨t, own, rfl⟩ := List.mem_map.1 member
  exact ⟨by simpa using (h t own).1, (h t own).2⟩

/-! ## Both ways -/

theorem split_whitespace_eq_filter
    (spaces : ∀ c ∈ line.toList, Text.isBlank c = true → c = ' ') :
    whitespace.split line = (space.split line).filter fun t => t ≠ "" := by
  apply eq_of_map_toList
  rw [map_toList_split_whitespace, Text.words_eq_filter_splitOn spaces, ← map_toList_split_space,
    List.filter_map]
  congr 2
  funext t
  rw [Function.comp_apply, Bool.eq_iff_iff]
  simp

theorem split_whitespace_of_singleSpaced (tidy : SingleSpaced line) :
    whitespace.split line = space.split line := by
  rw [split_whitespace_eq_filter tidy.spaces, List.filter_eq_self]
  intro t member
  simpa using ne_empty_of_mem_split_space tidy member

end SplitMode

namespace Interpreter

/-- The same session with lines cut in the given way. -/
def withSplit (i : Interpreter) (mode : SplitMode) : Interpreter := { i with split := mode }

theorem execute_withSplit (i : Interpreter) (mode : SplitMode) (t : Token) :
    (i.withSplit mode).execute t = ((i.execute t).1, (i.execute t).2.withSplit mode) := by
  have same : Execution.execute (i.withSplit mode).dictionary (i.withSplit mode).maxDepth t
      (i.withSplit mode).state = Execution.execute i.dictionary i.maxDepth t i.state := rfl
  rw [execute, execute, same]
  cases Execution.execute i.dictionary i.maxDepth t i.state <;> rfl

/-- Tokens do not depend on how the line was cut that they come from. -/
theorem evalTokens_withSplit (i : Interpreter) (mode : SplitMode) (ts : List Token) :
    (i.withSplit mode).evalTokens ts =
      ((i.evalTokens ts).1, (i.evalTokens ts).2.withSplit mode) := by
  induction ts generalizing i with
  | nil => rfl
  | cons t ts ih =>
    rw [evalTokens, evalTokens, execute_withSplit]
    cases i.execute t with
    | mk answer next =>
      have stands : (next.withSplit mode).state = next.state := rfl
      simp only [stands]
      cases next.state.isShutdown with
      | true => rfl
      | false =>
        cases answer with
        | error fault => rfl
        | ok _ => exact ih next

theorem evalLine_withSplit (i : Interpreter) {line : String} (tidy : SingleSpaced line) :
    (i.withSplit .whitespace).evalLine line =
      (((i.withSplit .space).evalLine line).1,
        ((i.withSplit .space).evalLine line).2.withSplit .whitespace) := by
  have same : (i.withSplit .whitespace).split.split line = (i.withSplit .space).split.split line :=
    SplitMode.split_whitespace_of_singleSpaced tidy
  rw [evalLine_of_ne_empty tidy.nonempty, evalLine_of_ne_empty tidy.nonempty, same,
    evalTokens_withSplit, evalTokens_withSplit]
  rfl

end Interpreter

namespace SplitMode

/-- Both ways of cutting a line are faithful to it, and they agree where they should.

Cut at spaces, the line is its tokens with single spaces between them; no token holds a space, and
there is one token more than there are spaces. Cut at blanks, no token is empty or holds a blank,
the tokens one after the other are the line without its blanks, two characters next to each other
that are not blank stay together, and the tokens, written with single spaces between them, are cut
into the same tokens again, in either way if there are any.

If the blanks of a line are spaces, cutting at blanks gives the tokens of the other way that are not
empty. If besides there is something in it, and no space at either end or next to another, the line
comes to the same in either way, from any state. -/
theorem split_faithful (line : String) :
    (" ".intercalate (space.split line) = line ∧
      (∀ t ∈ space.split line, ' ' ∉ t.toList) ∧
      (space.split line).length = line.toList.count ' ' + 1) ∧
    ((∀ t ∈ whitespace.split line, t ≠ "" ∧ ∀ c ∈ t.toList, Text.isBlank c = false) ∧
      (whitespace.split line).flatMap String.toList = line.toList.filter Text.isSolid ∧
      (∀ before c d after, line.toList = before ++ c :: d :: after →
        Text.isBlank c = false → Text.isBlank d = false →
        Token.Together (whitespace.split line) (before.filter Text.isSolid) c d
          (after.filter Text.isSolid)) ∧
      ∀ mode : SplitMode, whitespace.split line ≠ [] →
        mode.split (" ".intercalate (whitespace.split line)) = whitespace.split line) ∧
    ((∀ c ∈ line.toList, Text.isBlank c = true → c = ' ') →
      whitespace.split line = (space.split line).filter fun t => t ≠ "") ∧
    (SingleSpaced line → ∀ i : Interpreter,
      (i.withSplit .whitespace).evalLine line =
        (((i.withSplit .space).evalLine line).1,
          ((i.withSplit .space).evalLine line).2.withSplit .whitespace)) := by
  have apart {t : Token} (h : t ∈ space.split line) : ' ' ∉ t.toList := by
    intro member
    simpa [separates] using not_separates_of_mem_split h ' ' member
  have words : ∀ t ∈ whitespace.split line, t ≠ "" ∧ ∀ c ∈ t.toList, Text.isBlank c = false :=
    fun t => of_mem_split_whitespace
  refine ⟨⟨intercalate_split_space line, fun t => apart, length_split_space line⟩,
    ⟨words, flatMap_toList_split_whitespace line, ?_, ?_⟩, split_whitespace_eq_filter, ?_⟩
  · intro before c d after adjacent hc hd
    exact together_split_whitespace adjacent hc hd
  · intro mode nonempty
    cases mode with
    | space =>
      refine split_space_intercalate nonempty fun t member space => ?_
      cases ((words t member).2 ' ' space).symm.trans (by decide : Text.isBlank ' ' = true)
    | whitespace => exact split_whitespace_intercalate words
  · intro tidy i
    exact i.evalLine_withSplit tidy

/-- A line with an ideographic space and a tabulator, one whose spaces make empty tokens, and one
that is cut alike in both ways. -/
theorem split_faithful_at_blanks :
    Token.Together (whitespace.split "a\u300012\t+") ['a'] '1' '2' ['+'] ∧
    space.split (" ".intercalate (whitespace.split "a\u300012\t+")) = ["a", "12", "+"] ∧
    ["1", "2"] = (space.split " 1  2").filter (fun t => t ≠ "") ∧
    ∀ i : Interpreter,
      ((i.withSplit .whitespace).evalLine "1 .").1 = ((i.withSplit .space).evalLine "1 .").1 := by
  have cut : whitespace.split "a\u300012\t+" = ["a", "12", "+"] := by decide
  have gaps : whitespace.split " 1  2" = ["1", "2"] := by decide
  have spaces : ∀ c ∈ " 1  2".toList, Text.isBlank c = true → c = ' ' := by
    simp [Text.isBlank, Text.blankRanges]
  have tidy : SingleSpaced "1 ." :=
    ⟨by decide, by decide, by decide, by decide, by simp [Text.isBlank, Text.blankRanges]⟩
  obtain ⟨-, ⟨-, -, together, again⟩, -, -⟩ := split_faithful "a\u300012\t+"
  refine ⟨together ['a', '\u3000'] '1' '2' ['\t', '+'] rfl (by decide) (by decide), ?_, ?_, ?_⟩
  · rw [again .space (by simp [cut]), cut]
  · rw [← gaps, (split_faithful " 1  2").2.2.1 spaces]
  · intro i
    rw [(split_faithful "1 .").2.2.2 tidy i]

end SplitMode

end Forth
