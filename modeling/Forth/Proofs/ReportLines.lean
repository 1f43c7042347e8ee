import Mathlib
import Forth.Proofs.Faults
import Forth.Proofs.Numerals
import Forth.Report

/-!
# The lines of a report

A report is a head line and, for the two faults that quote something, a line with the quotation.
`Outcome.IsReport` says what these lines look like from outside: a head line begins with two spaces
and no more, a quotation with four, and from the head line alone `Kind.ofHead?` tells how the line
of input ended.

Texts from outside get into a report, and it keeps its shape as long as none of them has a newline
in it. An outcome of which this is known is `Plain`; its report is one of the right kind
(`Outcome.isReport_reportLines`), in lines that can be told apart
(`Outcome.newline_not_mem_reportLines`).
-/

namespace Forth

/-- What a report tells about the line of input it belongs to. -/
inductive Kind where
  /-- The line ended well and has no value. -/
  | bare
  | integer (n : Int64)
  | summary
  | failure
  | shutdown
  deriving DecidableEq

/-- What a head line says after its two spaces. An integer can be told from the other texts by its
first character. -/
def Kind.ofText? (text : List Char) : Option Kind :=
  match Decimal.readInt64 (text.takeWhile Token.startsNumber) with
  | .ok n => some (.integer n)
  | .error _ =>
    match text with
    | 'O' :: _ => some .bare
    | '<' :: _ => some .summary
    | 'E' :: 'r' :: _ => some .failure
    | 'E' :: 'x' :: _ => some .shutdown
    | _ => none

def Kind.ofHead? (head : List Char) : Option Kind := ofText? (head.drop 2)

/-- A line that begins with two spaces and then something else. -/
def IsHead (line : List Char) : Prop := ∃ c rest, line = ' ' :: ' ' :: c :: rest ∧ c ≠ ' '

/-- The line that quotes a text: four spaces, and the text between quotation marks. -/
def quotation (text : String) : List Char :=
  ' ' :: ' ' :: ' ' :: ' ' :: '"' :: (text.toList ++ ['"'])

/-- A line that begins with four spaces. -/
def isIndented (line : List Char) : Bool := "    ".toList.isPrefixOf line

/-- The lines that do not begin with four spaces. -/
def heads (output : List (List Char)) : List (List Char) := output.filter fun l => !isIndented l

namespace Outcome

def kind : Outcome → Kind
  | completed none => .bare
  | completed (some (.integer n)) => .integer n
  | completed (some (.text _)) => .summary
  | failed _ => .failure
  | shutdown => .shutdown

/-- What a report quotes: the word that is unknown, or the first character of a token that starts
neither a number nor a word. -/
def quoted? : Outcome → Option String
  | failed (.unknownWord word) => some word
  | failed (.uncaughtToken token) => some (String.ofList (token.toList.take 1))
  | _ => none

/-- The lines are a report: one head line that tells the kind of the outcome, one line with the
quotation if there is something to quote, and nothing else. -/
def IsReport (o : Outcome) (report : List (List Char)) : Prop :=
  ∃ head, IsHead head ∧ Kind.ofHead? head = some o.kind ∧
    report = head :: (o.quoted?.map quotation).toList

end Outcome

/-! ## Reading reports -/

section

variable {head text : List Char} {o : Outcome} {report : List (List Char)}
variable {outcomes : List Outcome} {reports : List (List (List Char))}

theorem not_isIndented_of_isHead (h : IsHead head) : isIndented head = false := by
  obtain ⟨c, rest, rfl, other⟩ := h
  simp [isIndented, List.isPrefixOf, other.symm]

theorem isIndented_quotation (text : String) : isIndented (quotation text) = true := rfl

/-- What tells anything begins with no space. -/
theorem isHead_of_ofText? {kind : Kind} (h : Kind.ofText? text = some kind) :
    IsHead (' ' :: ' ' :: text) := by
  cases text with
  | nil => cases h
  | cons c rest =>
    refine ⟨c, rest, rfl, ?_⟩
    rintro rfl
    cases h

/-- The lines of a report that are not indented are its head line. -/
theorem Outcome.IsReport.exists_head (h : o.IsReport report) :
    ∃ head, heads report = [head] ∧ Kind.ofHead? head = some o.kind := by
  obtain ⟨head, starts, tells, rfl⟩ := h
  refine ⟨head, ?_, tells⟩
  have kept := not_isIndented_of_isHead starts
  cases o.quoted? with
  | none => simp [heads, kept]
  | some text => simp [heads, kept, isIndented_quotation]

/-- The head lines of a transcript tell the outcomes in order. -/
theorem map_ofHead?_heads (h : List.Forall₂ Outcome.IsReport outcomes reports) :
    (heads reports.flatten).map Kind.ofHead? = outcomes.map fun o => some o.kind := by
  induction h with
  | nil => rfl
  | cons first others ih =>
    obtain ⟨head, own, tells⟩ := first.exists_head
    have split (report others : List (List Char)) :
        heads (report ++ others) = heads report ++ heads others := List.filter_append ..
    rw [List.flatten_cons, split, own, List.map_append, ih, List.map_singleton, tells]
    rfl

end

/-! ## Texts without newlines -/

/-- The text is in one line. -/
def OneLine (s : String) : Prop := '\n' ∉ s.toList

instance (s : String) : Decidable (OneLine s) := inferInstanceAs (Decidable ('\n' ∉ s.toList))

theorem oneLine_append {s t : String} : OneLine (s ++ t) ↔ OneLine s ∧ OneLine t := by
  rw [OneLine, String.toList_append, List.mem_append, not_or, OneLine, OneLine]

theorem oneLine_repr (n : Nat) : OneLine n.repr := by
  intro member
  cases Decimal.isDigit_of_mem_repr member

theorem oneLine_toString (n : Int64) : OneLine (toString n) := by
  intro member
  cases Decimal.startsNumber_of_mem_toString member

theorem oneLine_intercalate {separator : String} {pieces : List String} (apart : OneLine separator)
    (h : ∀ piece ∈ pieces, OneLine piece) : OneLine (separator.intercalate pieces) := by
  rw [OneLine, String.toList_intercalate]
  induction pieces with
  | nil => exact List.not_mem_nil
  | cons piece pieces ih =>
    obtain ⟨first, others⟩ := List.forall_mem_cons.1 h
    cases pieces with
    | nil =>
      rw [List.map_singleton, List.intercalate_singleton]
      exact first
    | cons next pieces =>
      rw [List.map_cons, List.map_cons, List.intercalate_cons_cons]
      simp only [List.mem_append, not_or]
      exact ⟨⟨first, apart⟩, ih others⟩

theorem oneLine_summary (ints : Stack Int64) : OneLine ints.summary := by
  have numbers : OneLine (",".intercalate (ints.toList.map toString)) := by
    apply oneLine_intercalate (by decide)
    intro piece member
    obtain ⟨n, -, rfl⟩ := List.mem_map.1 member
    exact oneLine_toString n
  have size : OneLine s!"<{ints.size}>" :=
    oneLine_append.2 ⟨oneLine_append.2 ⟨by decide, oneLine_repr ints.size⟩, by decide⟩
  rw [Stack.summary]
  split
  · exact oneLine_append.2 ⟨size, by decide⟩
  · exact oneLine_append.2 ⟨size, oneLine_append.2 ⟨by decide, numbers⟩⟩

theorem oneLine_message {fault : Fault} (h : ∀ name ∈ fault.subject?, OneLine name) :
    OneLine fault.message := by
  cases fault with
  | emptyStack => exact (by decide : OneLine "stack is empty")
  | tooFewItems _ _ => exact (by decide : OneLine "too few items on stack")
  | unknownWord _ => exact (by decide : OneLine "word does not exist in word dictionary")
  | uncaughtToken _ => exact (by decide : OneLine "token was not caught by switch")
  | floatUnsupported _ => exact (by decide : OneLine "floats not yet implemented")
  | divisionByZero word => exact oneLine_append.2 ⟨h word rfl, by decide⟩
  | tooDeep word limit =>
    have named : OneLine s!"word \"{word}\" nested too deeply (limit " :=
      oneLine_append.2 ⟨oneLine_append.2 ⟨by decide, h word rfl⟩, by decide⟩
    exact oneLine_append.2 ⟨oneLine_append.2 ⟨named, oneLine_repr limit⟩, by decide⟩
  | unreadable token cause =>
    have named : OneLine s!"could not parse \"{token}\" as an integer: " :=
      oneLine_append.2 ⟨oneLine_append.2 ⟨by decide, h token rfl⟩, by decide⟩
    have reason : OneLine cause.message := by
      cases cause <;> decide
    exact oneLine_append.2 ⟨named, reason⟩

/-! ## Writing reports -/

/-- A value that a word can report: an integer, or the summary of a stack. -/
def Value.Reportable : Value → Prop
  | .integer _ => True
  | .text s => ∃ ints : Stack Int64, s = ints.summary

namespace Outcome

/-- Nothing that is put into the report has a newline in it. -/
def Plain : Outcome → Prop
  | completed v => ∀ x ∈ v, x.Reportable
  | failed fault => ∀ name ∈ fault.subject?, OneLine name
  | shutdown => True

/-- What the head line says after its two spaces. -/
def headText : Outcome → String
  | completed none => "OK!"
  | completed (some v) => v.toText ++ " OK!"
  | failed fault => "Error!: " ++ fault.message
  | shutdown => "Exiting..."

def reportLines (o : Outcome) : List (List Char) :=
  (' ' :: ' ' :: o.headText.toList) :: (o.quoted?.map quotation).toList

/-- The report is written line by line, each ended by a newline. -/
theorem toList_render (o : Outcome) :
    o.render.toList = o.reportLines.flatMap (· ++ ['\n']) := by
  cases o with
  | shutdown => rfl
  | completed v =>
    cases v with
    | none => rfl
    | some v => simp [render, reportLines, headText, quoted?, toString]
  | failed fault =>
    have quoted : (failed fault).quoted? = fault.context := by
      cases fault <;> rfl
    rw [render, reportLines, headText, quoted]
    cases fault.context with
    | none => simp [toString]
    | some text => simp [quotation, toString]

variable {o : Outcome}

theorem oneLine_headText (plain : o.Plain) : OneLine o.headText := by
  cases o with
  | shutdown => exact (by decide : OneLine "Exiting...")
  | failed fault => exact oneLine_append.2 ⟨by decide, oneLine_message plain⟩
  | completed v =>
    match v with
    | none => exact (by decide : OneLine "OK!")
    | some (.integer n) => exact oneLine_append.2 ⟨oneLine_toString n, by decide⟩
    | some (.text s) =>
      obtain ⟨ints, rfl⟩ := plain (.text s) rfl
      exact oneLine_append.2 ⟨oneLine_summary ints, by decide⟩

theorem oneLine_of_quoted? {text : String} (plain : o.Plain) (h : o.quoted? = some text) :
    OneLine text := by
  cases o with
  | completed v => cases h
  | shutdown => cases h
  | failed fault =>
    cases fault with
    | unknownWord word =>
      cases h
      exact plain _ rfl
    | uncaughtToken token =>
      cases h
      rw [OneLine, String.toList_ofList]
      intro member
      exact plain token rfl (List.mem_of_mem_take member)
    | _ => cases h

theorem newline_not_mem_reportLines (plain : o.Plain) : ∀ l ∈ o.reportLines, '\n' ∉ l := by
  rw [reportLines, List.forall_mem_cons]
  constructor
  · have own : '\n' ∉ o.headText.toList := oneLine_headText plain
    simp [own]
  · intro l member
    rw [Option.mem_toList, Option.map_eq_some_iff] at member
    obtain ⟨text, quoted, rfl⟩ := member
    have own : '\n' ∉ text.toList := oneLine_of_quoted? plain quoted
    simp [quotation, own]

/-! ## The head line -/

theorem ofText?_integer (n : Int64) :
    Kind.ofText? (toString n ++ " OK!").toList = some (.integer n) := by
  have number : (toString n ++ " OK!").toList.takeWhile Token.startsNumber =
      (toString n).toList := by
    rw [String.toList_append,
      List.takeWhile_append_of_pos fun c => Decimal.startsNumber_of_mem_toString]
    exact List.append_nil _
  simp only [Kind.ofText?, number, Decimal.readInt64_toString]

theorem exists_toList_summary (ints : Stack Int64) :
    ∃ rest, ints.summary.toList = '<' :: rest := by
  have begins : ∃ rest, ints.summary = "<" ++ rest := by
    rw [Stack.summary, String.append_assoc, String.append_assoc]
    exact ⟨_, rfl⟩
  obtain ⟨rest, begins⟩ := begins
  rw [begins, String.toList_append]
  exact ⟨rest.toList, rfl⟩

theorem ofText?_headText (plain : o.Plain) : Kind.ofText? o.headText.toList = some o.kind := by
  cases o with
  | shutdown => rfl
  | failed fault =>
    rw [headText, String.toList_append]
    rfl
  | completed v =>
    match v with
    | none => rfl
    | some (.integer n) => exact ofText?_integer n
    | some (.text s) =>
      obtain ⟨ints, rfl⟩ := plain (.text s) rfl
      obtain ⟨rest, summary⟩ := exists_toList_summary ints
      rw [headText, String.toList_append, Value.toText, summary]
      rfl

theorem isReport_reportLines (plain : o.Plain) : o.IsReport o.reportLines := by
  have tells := ofText?_headText plain
  exact ⟨_, isHead_of_ofText? tells, tells, rfl⟩

end Outcome

end Forth
