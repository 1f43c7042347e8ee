import Forth.Text.Blank

/-!
# Tokens

A line of input is cut into tokens, and the first character of a token decides what kind
of token it is. The characters that start a number are looked at first, so that `-` starts
a number although words may start with it too.
-/

namespace Forth

abbrev Token := String

namespace Token

inductive Kind where
  | number
  | word
  | unrecognized
  deriving DecidableEq

def startsNumber (c : Char) : Bool :=
  c.isDigit || c == '-'

/-- The signs, letters apart, that may start a word. -/
def wordSigns : List Char :=
  ['.', '!', '?', '<', '>', ',', '@', ':', ';', '+', '-', '*', '/', '$', '%', '^', '&', '#']

def startsWord (c : Char) : Bool :=
  c.isAlpha || wordSigns.contains c

def kind (t : Token) : Kind :=
  match t.toList.head? with
  | none => .unrecognized
  | some c =>
    if startsNumber c then .number
    else if startsWord c then .word
    else .unrecognized

/-- A number that ends in `e` is kept for floating point. The last character alone decides. -/
def isFloat (t : Token) : Bool :=
  t.toList.getLast? == some 'e'

end Token

/-- How a line is cut into tokens. -/
inductive SplitMode where
  /-- At every single space, so that neighbouring spaces have an empty token between them. -/
  | space
  /-- At every run of blanks, without empty tokens. -/
  | whitespace
  deriving DecidableEq

namespace SplitMode

def name : SplitMode → String
  | .space => "space"
  | .whitespace => "whitespace"

def ofName? : String → Option SplitMode
  | "space" => some .space
  | "whitespace" => some .whitespace
  | _ => none

/-- What is said of a name that `ofName?` does not know. -/
def unknownMessage (name : String) : String :=
  s!"unknown split mode '{name}' (expected 'space' or 'whitespace')"

def split (mode : SplitMode) (line : String) : List Token :=
  match mode with
  | .space => (line.toList.splitOn ' ').map String.ofList
  | .whitespace => Text.wordsOf line

/-- The characters that a line is cut at. -/
def separates (mode : SplitMode) (c : Char) : Bool :=
  match mode with
  | .space => c == ' '
  | .whitespace => Text.isBlank c

/-- The tokens of a line hold characters of the line, and none that it is cut at. -/
theorem of_mem_split {mode : SplitMode} {line : String} {t : Token} (h : t ∈ mode.split line) :
    ∀ c ∈ t.toList, c ∈ line.toList ∧ mode.separates c = false := by
  cases mode with
  | space =>
    obtain ⟨piece, member, rfl⟩ := List.mem_map.1 h
    rw [List.splitOn_eq_splitOnP] at member
    rw [String.toList_ofList]
    exact Text.of_mem_splitOnP member
  | whitespace =>
    obtain ⟨piece, member, rfl⟩ := List.mem_map.1 h
    rw [String.toList_ofList]
    exact Text.of_mem_words member

theorem not_separates_of_mem_split {mode : SplitMode} {line : String} {t : Token}
    (h : t ∈ mode.split line) : ∀ c ∈ t.toList, mode.separates c = false :=
  fun c member => (of_mem_split h c member).2

/-- A text that holds none of them is its own only token, unless it is empty. -/
theorem split_of_not_separates {mode : SplitMode} {t : Token} (nonempty : t ≠ "")
    (h : ∀ c ∈ t.toList, mode.separates c = false) : mode.split t = [t] := by
  have full : t.toList ≠ [] := fun empty => nonempty (String.toList_eq_nil_iff.1 empty)
  cases mode with
  | space =>
    have whole : t.toList.splitOn ' ' = [t.toList] := by
      rw [List.splitOn_eq_splitOnP]
      exact List.splitOnP_eq_singleton h
    rw [split, whole, List.map_singleton, String.ofList_toList]
  | whitespace =>
    rw [split, Text.wordsOf, Text.words_of_no_blank full h, List.map_singleton,
      String.ofList_toList]

@[simp] theorem ofName?_name (mode : SplitMode) : ofName? mode.name = some mode := by
  cases mode <;> rfl

end SplitMode

end Forth
