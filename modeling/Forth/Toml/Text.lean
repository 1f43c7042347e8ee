import Forth.Toml.Reader

/-!
# Strings, keys and gaps of TOML

A string is cut out first, up to the quote that closes it, and decoded after that. Inside
basic strings a backslash takes the next character with it, so an escaped quote closes
nothing; in literal strings it is a character like any other. A string opened by three
quotes may run over several lines and is closed by three; up to two more right before the
close belong to the string.
-/

namespace Forth.Toml

/-! ## Gaps -/

def isSpace (c : Char) : Bool := c == ' ' || c == '\t'

/-- The characters of a comment and, with the quotes and the backslash apart, of a string. -/
def isTextChar (c : Char) : Bool := c == '\t' || (' ' ≤ c && c != '\x7F')

def spaces : Skip := .run isSpace

/-- A comment takes everything that may stand in one. -/
def comment : Skip where
  skip
    | '#' :: s => some (s.dropWhile isTextChar)
    | s => some s
  le {s rest} h := by
    split at h <;> obtain rfl := Option.some.inj h
    · next t => exact Nat.le_succ_of_le (length_dropWhile_le isTextChar t)
    · exact Nat.le_refl _

/-- A line feed, with or without a carriage return before it, or the end of the text. -/
def lineBreak : Skip where
  skip
    | [] => some []
    | '\n' :: s => some s
    | '\r' :: '\n' :: s => some s
    | _ => none
  le {s rest} h := by
    split at h
    next =>
      obtain rfl := Option.some.inj h
      exact Nat.le_refl 0
    next s =>
      obtain rfl := Option.some.inj h
      exact Nat.le_add_right s.length 1
    next s =>
      obtain rfl := Option.some.inj h
      exact Nat.le_add_right s.length 2
    next => cases h

/-- The end of a line, with spaces and a comment before it. -/
def lineEnd : Skip :=
  (spaces.followedBy comment).followedBy lineBreak

/-- The end of a line takes something, except at the end of the text. -/
theorem length_lineEnd_lt {s rest : List Char} (hs : s ≠ []) (h : lineEnd.skip s = some rest) :
    rest.length < s.length := by
  obtain ⟨t, ht, hr⟩ := Option.bind_eq_some_iff.1 h
  have le := (spaces.followedBy comment).le ht
  simp only [lineBreak] at hr
  split at hr
  next =>
    obtain rfl := Option.some.inj hr
    exact List.length_pos_iff.2 hs
  next rest' =>
    obtain rfl := Option.some.inj hr
    exact Nat.lt_of_lt_of_le (Nat.lt_add_one rest'.length) le
  next rest' =>
    obtain rfl := Option.some.inj hr
    exact Nat.lt_of_lt_of_le (Nat.lt_add_of_pos_right Nat.two_pos) le
  next => cases hr

/-- Drops spaces, line breaks and comments. A comment takes its line to the end; a character
that may not stand in one is left standing. -/
def dropLines (inComment : Bool) : List Char → List Char
  | [] => []
  | c :: s =>
    if c == '\n' || (c == '\r' && s.head? == some '\n') then dropLines false s
    else if inComment then if isTextChar c then dropLines true s else c :: s
    else if isSpace c then dropLines false s
    else if c == '#' then dropLines true s
    else c :: s

theorem length_dropLines_le (inComment : Bool) (s : List Char) :
    (dropLines inComment s).length ≤ s.length := by
  fun_induction dropLines inComment s <;> grind

/-- Gaps that may run over several lines. -/
def lines : Skip where
  skip s := some (dropLines false s)
  le {s rest} h := by
    obtain rfl := Option.some.inj h
    exact length_dropLines_le false s

/-! ## Cutting strings out -/

/-- The text up to the first quote `q`, and what follows the quote. -/
def untilQuote (q : Char) (escapes : Bool) (acc : List Char) :
    List Char → Option (List Char × List Char)
  | [] => none
  | c :: s =>
    if c == q then some (acc.reverse, s)
    else if escapes && c == '\\' then
      match s with
      | [] => none
      | d :: s => untilQuote q escapes (d :: c :: acc) s
    else untilQuote q escapes (c :: acc) s

/-- The text up to the last three of the first run of three to five quotes `q`, and what
follows them. -/
def untilTriple (q : Char) (escapes : Bool) (acc : List Char) :
    List Char → Option (List Char × List Char)
  | [] => none
  | c :: s =>
    if c == q && s.take 2 == [q, q] then
      let more := ((s.drop 2).take 2).takeWhile (· == q)
      some (acc.reverse ++ more, s.drop (2 + more.length))
    else if escapes && c == '\\' then
      match s with
      | [] => none
      | d :: s => untilTriple q escapes (d :: c :: acc) s
    else untilTriple q escapes (c :: acc) s

theorem length_untilQuote {q : Char} {escapes : Bool} {acc s a rest : List Char}
    (h : untilQuote q escapes acc s = some (a, rest)) : rest.length < s.length := by
  fun_induction untilQuote q escapes acc s <;> grind

theorem length_untilTriple {q : Char} {escapes : Bool} {acc s a rest : List Char}
    (h : untilTriple q escapes acc s = some (a, rest)) : rest.length < s.length := by
  fun_induction untilTriple q escapes acc s <;> grind

/-- Reads up to a single closing quote. -/
def singleQuoted (q : Char) (escapes : Bool) : Reader (List Char) :=
  ⟨untilQuote q escapes [], length_untilQuote⟩

/-- Reads up to three closing quotes. -/
def tripleQuoted (q : Char) (escapes : Bool) : Reader (List Char) :=
  ⟨untilTriple q escapes [], length_untilTriple⟩

/-! ## Decoding -/

/-- Lines end with a line feed alone, whatever they were written with. -/
def unifyLineBreaks : List Char → List Char
  | [] => []
  | '\r' :: '\n' :: s => '\n' :: unifyLineBreaks s
  | c :: s => c :: unifyLineBreaks s

def hexDigit? (c : Char) : Option Nat :=
  if c.isDigit then some (c.toNat - '0'.toNat)
  else if 'a' ≤ c && c ≤ 'f' then some (c.toNat - 'a'.toNat + 10)
  else if 'A' ≤ c && c ≤ 'F' then some (c.toNat - 'A'.toNat + 10)
  else none

/-- The character with the given hexadecimal code. Surrogates and what lies past the last
code point are no characters. -/
def hexChar? (digits : List Char) : Option Char :=
  (digits.mapM hexDigit?).bind fun ds =>
    let n := ds.foldl (fun n d => n * 16 + d) 0
    if n.isValidChar then some (Char.ofNat n) else none

/-- The character that a letter stands for behind a backslash. -/
def escaped? : Char → Option Char
  | 'b' => some '\x08'
  | 't' => some '\t'
  | 'n' => some '\n'
  | 'f' => some '\x0C'
  | 'r' => some '\r'
  | '"' => some '"'
  | '\\' => some '\\'
  | _ => none

/-- May this character stand for itself in a string? -/
def isStringChar (multiline : Bool) (c : Char) : Bool :=
  isTextChar c || (multiline && c == '\n')

/-- Resolves the escapes of a basic string. A backslash at the end of a line takes the line
break and all blanks after it away; `joining` says that this is under way. -/
def unescape (multiline joining : Bool) (acc : String) : List Char → Option String
  | [] => some acc
  | c :: s =>
    if joining && (isSpace c || c == '\n') then unescape multiline true acc s
    else if c == '\\' then
      match s with
      | 'u' :: d₁ :: d₂ :: d₃ :: d₄ :: s =>
        match hexChar? [d₁, d₂, d₃, d₄] with
        | none => none
        | some d => unescape multiline false (acc.push d) s
      | 'U' :: d₁ :: d₂ :: d₃ :: d₄ :: d₅ :: d₆ :: d₇ :: d₈ :: s =>
        match hexChar? [d₁, d₂, d₃, d₄, d₅, d₆, d₇, d₈] with
        | none => none
        | some d => unescape multiline false (acc.push d) s
      | e :: s =>
        match escaped? e with
        | some d => unescape multiline false (acc.push d) s
        | none =>
          if multiline && ((e :: s).dropWhile isSpace).head? == some '\n' then
            unescape multiline true acc s
          else none
      | [] => none
    else if isStringChar multiline c then unescape multiline false (acc.push c) s
    else none

def basic? (body : List Char) : Option String :=
  unescape false false "" body

/-- A literal string stands for itself. -/
def literal? (body : List Char) : Option String :=
  if body.all (isStringChar false) then some (String.ofList body) else none

/-- The lines of a string of several lines. A line break right after the opening is no part
of them. -/
def block (body : List Char) : List Char :=
  match unifyLineBreaks body with
  | '\n' :: s => s
  | s => s

def basicBlock? (body : List Char) : Option String :=
  unescape true false "" (block body)

def literalBlock? (body : List Char) : Option String :=
  if (block body).all (isStringChar true) then some (String.ofList (block body)) else none

/-! ## Strings and keys -/

/-- Reads a string on one line. -/
def lineString : Reader String :=
  (((singleQuoted '"' true).filterMap basic?).after (.exactly ['"'])).orElse
    (((singleQuoted '\'' false).filterMap literal?).after (.exactly ['\'']))

/-- Reads a string of any kind. -/
def string : Reader String :=
  (((tripleQuoted '"' true).filterMap basicBlock?).after (.exactly ['"', '"', '"'])).orElse
    ((((tripleQuoted '\'' false).filterMap literalBlock?).after
      (.exactly ['\'', '\'', '\''])).orElse lineString)

def isBareKeyChar (c : Char) : Bool :=
  c.isAlphanum || c == '_' || c == '-'

/-- Reads one part of a key: a bare word, or a string on one line. -/
def keyPart : Reader String :=
  lineString.orElse ((Reader.run isBareKeyChar).map String.ofList)

/-- How many levels deep a document may be nested, and how many parts a key may have. -/
def maxNesting : Nat := 79

/-- A key of one part or of several with dots between them. -/
structure Key where
  /-- The parts that lead to a table. -/
  path : List String
  /-- The part that names something in that table. -/
  last : String
  deriving DecidableEq

/-- Reads a key and the spaces around it. -/
def key : Reader Key :=
  ((Reader.chain '.' spaces keyPart).before spaces).filterMap fun parts =>
    if parts.length ≤ maxNesting then parts.getLast?.map (⟨parts.dropLast, ·⟩) else none

end Forth.Toml
