import Mathlib
import Forth.Proofs.Decoding
import Forth.Proofs.FullSink
import Forth.Proofs.ReportLines
import Forth.Proofs.ReportedValues
import Forth.Proofs.Splitting

/-!
# The transcript, line by line

Whatever a session is given, the lines of its transcript can be told apart and each belongs to one
report. A newline could get into a report by a name or by a value. A name in a fault is a token of
the line, or it is reached through bodies, and a body is cut at blanks
(`Interpreter.oneLine_of_mentions`); a value is an integer or the summary of a stack, in every
session that is reached by calls (`Interpreter.Reachable.hasReportable`). Lines of bytes have no
newline in them, so neither have their tokens.
-/

namespace Forth

namespace Execution

variable {d : Dictionary} {t : Token} {ts : List Token} {s : State} {v : Value}

theorem reportable_of_reportOf? (h : reportOf? d t s = some v) : v.Reportable := by
  rw [reportOf?] at h
  split at h
  next w _ =>
    cases w with
    | dot =>
      obtain ⟨n, -, rfl⟩ := Option.map_eq_some_iff.1 h
      trivial
    | dotS =>
      cases h
      exact ⟨s.ints, rfl⟩
    | _ => cases h
  all_goals cases h

theorem reportable_of_mem_reports (h : v ∈ reports d ts s) : v.Reportable := by
  induction ts generalizing s with
  | nil => cases h
  | cons t ts ih =>
    cases first : effect d t s with
    | error fault s' =>
      rw [reports_of_error first, Option.mem_toList] at h
      exact reportable_of_reportOf? h
    | ok _ s' =>
      rw [reports_of_ok first, List.mem_append, Option.mem_toList] at h
      rcases h with own | later
      · exact reportable_of_reportOf? own
      · exact ih later

end Execution

namespace Interpreter

variable {i : Interpreter} {t u : Token} {ts : List Token} {line : String} {lines : List String}

/-- The value of the session is one that a word can report. -/
def HasReportable (i : Interpreter) : Prop := ∀ v ∈ i.state.value, v.Reportable

theorem hasReportable_evalLine (i : Interpreter) (line : String) :
    (i.evalLine line).2.HasReportable := by
  intro v member
  cases member

theorem HasReportable.execute (before : i.HasReportable) (t : Token) :
    (i.execute t).2.HasReportable := by
  intro v member
  rw [Option.mem_def, state_execute, (Execution.account_execute i.dictionary i.maxDepth t
    i.state).after_eq, (Execution.value_after_replay _ _ _).1, Option.or_eq_some_iff] at member
  rcases member with last | ⟨-, old⟩
  · exact Execution.reportable_of_mem_reports (List.mem_of_getLast? last)
  · exact before v old

/-- A session that was started, and then called and given other settings in any order. -/
inductive Reachable : Interpreter → Prop where
  | new (d : Dictionary) (limit : Nat) (mode : SplitMode) : Reachable (.new d limit mode)
  | perform {i : Interpreter} (call : Call) (before : Reachable i) : Reachable (i.perform call)
  | configure {i : Interpreter} (limit : Nat) (mode : SplitMode) (before : Reachable i) :
      Reachable { i with maxDepth := limit, split := mode }

theorem Reachable.hasReportable (h : i.Reachable) : i.HasReportable := by
  induction h with
  | new d limit mode =>
    intro v member
    cases member
  | configure limit mode _ ih => exact ih
  | perform call _ ih =>
    cases call with
    | execute t => exact ih.execute t
    | line text => exact hasReportable_evalLine _ text

/-- Bodies are cut at blanks, so no newline comes in through them. -/
theorem oneLine_of_mentions {d : Dictionary} (h : Relation.ReflTransGen d.Mentions t u)
    (start : OneLine t) : OneLine u := by
  induction h with
  | refl => exact start
  | tail _ last _ =>
    obtain ⟨w, -, member⟩ := last
    rw [Composite.toList_tokens] at member
    obtain ⟨word, whole, rfl⟩ := List.mem_map.1 member
    rw [OneLine, String.toList_ofList]
    intro inside
    cases (Text.of_mem_words whole '\n' inside).2

theorem plain_of_execute_error {fault : Fault} (h : (i.execute t).1 = .error fault)
    (start : OneLine t) : (Outcome.failed fault).Plain := by
  obtain ⟨s, failed⟩ := expand_of_execute_error h
  intro name named
  exact oneLine_of_mentions ((Execution.expand_error_holdsOf failed).2 name named) start

theorem plain_evalTokens (before : i.HasReportable) (h : ∀ t ∈ ts, OneLine t) :
    (i.evalTokens ts).1.Plain := by
  induction ts generalizing i with
  | nil => exact before
  | cons t ts ih =>
    obtain ⟨first, others⟩ := List.forall_mem_cons.1 h
    have kept := before.execute t
    have failed := fun fault (failed : (i.execute t).1 = .error fault) =>
      plain_of_execute_error failed first
    rw [evalTokens]
    generalize i.execute t = ran at kept failed ⊢
    obtain ⟨result, next⟩ := ran
    dsimp only
    split
    · trivial
    · cases result with
      | ok _ => exact ih kept others
      | error fault => exact failed fault rfl

theorem plain_evalLine (before : i.HasReportable) (h : OneLine line) :
    (i.evalLine line).1.Plain := by
  by_cases empty : line = ""
  · subst empty
    intro v member
    cases member
  · rw [evalLine_of_ne_empty empty]
    apply plain_evalTokens before
    intro t member inside
    exact h (SplitMode.of_mem_split member '\n' inside).1

theorem plain_evalLines (before : i.HasReportable) (h : ∀ line ∈ lines, OneLine line) :
    ∀ o ∈ (i.evalLines lines).1, o.Plain := by
  induction lines generalizing i with
  | nil =>
    intro o member
    cases member
  | cons line lines ih =>
    obtain ⟨first, others⟩ := List.forall_mem_cons.1 h
    rw [evalLines_cons, List.forall_mem_cons]
    exact ⟨plain_evalLine before first, ih (hasReportable_evalLine i line) others⟩

theorem length_evalLines (i : Interpreter) (lines : List String) :
    (i.evalLines lines).1.length = lines.length := by
  induction lines generalizing i with
  | nil => rfl
  | cons line lines ih => rw [evalLines_cons, List.length_cons, ih, List.length_cons]

end Interpreter

/-! ## Cutting the transcript -/

theorem toList_join_render (outcomes : List Outcome) :
    (String.join (outcomes.map Outcome.render)).toList =
      (outcomes.map Outcome.reportLines).flatten.flatMap (· ++ ['\n']) := by
  induction outcomes with
  | nil => rfl
  | cons o outcomes ih =>
    rw [List.map_cons, String.join_cons, String.toList_append, ih, Outcome.toList_render,
      List.map_cons, List.flatten_cons, List.flatMap_append]

theorem splitOn_join_render {outcomes : List Outcome} (plain : ∀ o ∈ outcomes, o.Plain) :
    (String.join (outcomes.map Outcome.render)).toList.splitOn '\n' =
      (outcomes.map Outcome.reportLines).flatten ++ [[]] := by
  rw [toList_join_render, Text.splitOn_flatMap, Text.flatMap_splitOn_of_not_mem]
  intro l member
  obtain ⟨report, reported, member⟩ := List.mem_flatten.1 member
  obtain ⟨o, outcome, rfl⟩ := List.mem_map.1 reported
  exact Outcome.newline_not_mem_reportLines (plain o outcome) l member

namespace Session

/-- The lines of a course are lines of the source. -/
theorem Course.mem_of_mem_lines {i : Interpreter} {lines source : List String}
    {result : Except Failure Unit} {rest : List Answer} {line : String}
    (course : Course i (source.map .line) lines result rest) (h : line ∈ lines) :
    line ∈ source := by
  obtain ⟨more, answered⟩ := course.exists_answers
  have member : Answer.line line ∈ source.map .line := by
    rw [answered]
    exact List.mem_append_left more (List.mem_map_of_mem h)
  obtain ⟨own, member, same⟩ := List.mem_map.1 member
  cases same
  exact member

/-- The transcript of a session that reads bytes can be taken apart, whatever the bytes and however
the session got where it is. Cut at newlines it is one report after the other, one for each line
that is evaluated, and nothing is left over. So there are as many lines that are not indented by
four spaces as lines of input, and they tell in order how those ended: without a value, with which
integer, with a summary, with a failure, or with the end of the session. -/
theorem transcript_framed (prompt : String) (i : Interpreter) (reachable : i.Reachable)
    (input : List UInt8) :
    (∃ lines result rest,
      Course i ((Text.Lines.ofBytes input).map .line) lines result rest) ∧
    ∀ lines result rest, Course i ((Text.Lines.ofBytes input).map .line) lines result rest →
      ∃ (text : String) (reports : List (List (List Char))),
        run prompt ⟨i, .ofLines (Text.Lines.ofBytes input), .withRoom none⟩ =
          (result, ⟨(i.evalLines lines).2,
            ⟨rest, Array.replicate (reads lines result) prompt⟩, ⟨text.toUTF8, none⟩⟩) ∧
        text.toList.splitOn '\n' = reports.flatten ++ [[]] ∧
        List.Forall₂ Outcome.IsReport (i.evalLines lines).1 reports ∧
        (heads reports.flatten).length = lines.length ∧
        (heads reports.flatten).map Kind.ofHead? =
          (i.evalLines lines).1.map fun o => some o.kind := by
  refine ⟨exists_course i _, ?_⟩
  intro lines result rest course
  have plain : ∀ o ∈ (i.evalLines lines).1, o.Plain := by
    apply Interpreter.plain_evalLines reachable.hasReportable
    intro line member
    exact Text.Lines.newline_not_mem_ofBytes (course.mem_of_mem_lines member)
  have framed : List.Forall₂ Outcome.IsReport (i.evalLines lines).1
      ((i.evalLines lines).1.map Outcome.reportLines) := by
    rw [List.forall₂_map_right_iff, List.forall₂_same]
    intro o member
    exact Outcome.isReport_reportLines (plain o member)
  have told := map_ofHead?_heads framed
  refine ⟨String.join ((i.evalLines lines).1.map Outcome.render), _, ?_,
    splitOn_join_render plain, framed, ?_, told⟩
  · have started : Sink.accept (.withRoom none) (transcript (i.evalLines lines).1) =
        ⟨transcript (i.evalLines lines).1, none⟩ := by
      rw [Sink.accept, Sink.withRoom, ByteArray.empty_append]
      rfl
    have unlimited : (Sink.withRoom none).HasRoom (transcript (i.evalLines lines).1).size :=
      Sink.hasRoom_unlimited
    rw [Source.ofLines, Source.ofAnswers, run_of_course course unlimited, started,
      Array.empty_append, transcript]
  · have counted := congrArg List.length told
    rwa [List.length_map, List.length_map, Interpreter.length_evalLines] at counted

/-- A session with a name and a body that are written over two lines. -/
def broken : Interpreter := .new (.ofList [.define "x\n" "1", .define "x" "no\nway"]) 8 .space

/-- Four lines, of which the third ends the session. -/
def fourLines : List UInt8 := "x\n1 .\nbye\n2".toUTF8.data.toList

/-- The newline in the body of `x` does not get into its report. The three lines that are evaluated
are reported in three head lines, and these tell a failure, a 1 and the end of the session. -/
theorem transcript_framed_of_broken :
    broken.Reachable ∧
    Course broken ((Text.Lines.ofBytes fourLines).map .line) ["x", "1 .", "bye"] (.ok ())
      [.line "2"] ∧
    ∃ (text : String) (reports : List (List (List Char))),
      (run "" ⟨broken, .ofLines (Text.Lines.ofBytes fourLines), .withRoom none⟩).2.sink.written =
        text.toUTF8 ∧
      text.toList.splitOn '\n' = reports.flatten ++ [[]] ∧
      (heads reports.flatten).map Kind.ofHead? =
        [some .failure, some (.integer 1), some .shutdown] := by
  have reachable : broken.Reachable := .new _ _ _
  have read : Text.Lines.ofBytes fourLines = ["x", "1 .", "bye", "2"] := by cbv
  have evaluated : broken.evalLines ["x", "1 ."] =
      ([.failed (.unknownWord "no"), .completed (some (.integer 1))], broken) := by cbv
  have last : (broken.evalLine "bye").1 = .shutdown := by cbv
  have goesOn : broken.GoesOn ["x", "1 ."] := by
    rw [Interpreter.GoesOn, evaluated]
    decide
  have shut : ((broken.evalLines ["x", "1 ."]).2.evalLine "bye").1.isShutdown = true := by
    rw [evaluated, last]
    rfl
  have course : Course broken ((Text.Lines.ofBytes fourLines).map .line) ["x", "1 .", "bye"]
      (.ok ()) [.line "2"] := by
    rw [read]
    exact .shutdown goesOn shut
  obtain ⟨text, reports, ran, cut, -, -, told⟩ :=
    (transcript_framed "" broken reachable fourLines).2 _ _ _ course
  have all := Interpreter.evalLines_concat broken ["x", "1 ."] "bye"
  rw [evaluated, last] at all
  refine ⟨reachable, course, text, reports, ?_, cut, told.trans ?_⟩
  · rw [ran]
  · exact congrArg (fun evaluated => evaluated.1.map fun o => some o.kind) all

end Session

end Forth
