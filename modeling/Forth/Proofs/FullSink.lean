import Mathlib
import Forth.Proofs.Transcript

/-!
# Sinks that fill up

A sink with room for a number of bytes cuts the transcript of the session off after that number
and changes nothing before. Up to there the session is the one with an unlimited sink, line by
line; if its reports take more bytes than there is room for, one of them is the first that does not
fit (`exists_crossing`), and the session ends with it: the line has been evaluated, and no other
line is read (`run_of_crossing`).
-/

namespace Forth

theorem extract_of_size_le {bytes : ByteArray} {limit : Nat} (within : bytes.size ≤ limit) :
    bytes.extract 0 limit = bytes := by
  have all := @ByteArray.extract_zero_max_size bytes limit
  rwa [Nat.max_eq_left within] at all

/-- Bytes are cut off where they would be without what follows. -/
theorem extract_transcript_append {os ps : List Outcome} {limit : Nat}
    (within : limit ≤ (transcript os).size) :
    (transcript (os ++ ps)).extract 0 limit = (transcript os).extract 0 limit := by
  rw [transcript_append, ByteArray.extract_append, Nat.sub_eq_zero_of_le within]
  simp

namespace Interpreter

variable {i : Interpreter} {lines : List String} {limit : Nat}

/-- No line leaves its value to the next. -/
theorem value_evalLine (i : Interpreter) (line : String) :
    (i.evalLine line).2.state.value = none := rfl

/-- Where the reports of lines take more bytes than the limit, there is a first line whose report
takes them past it. -/
theorem exists_crossing (more : limit < (transcript (i.evalLines lines).1).size) :
    ∃ before line after, lines = before ++ line :: after ∧
      (transcript (i.evalLines before).1).size ≤ limit ∧
      limit < (transcript (i.evalLines (before ++ [line])).1).size := by
  induction lines using List.reverseRecOn with
  | nil =>
    rw [evalLines, transcript_nil, ByteArray.size_empty] at more
    omega
  | append_singleton lines last ih =>
    by_cases earlier : limit < (transcript (i.evalLines lines).1).size
    · obtain ⟨before, line, after, rfl, fits, crosses⟩ := ih earlier
      refine ⟨before, line, after ++ [last], ?_, fits, crosses⟩
      rw [List.append_assoc, List.cons_append]
    · exact ⟨lines, last, [], rfl, Nat.le_of_not_lt earlier, more⟩

end Interpreter

namespace Session

section

variable {i : Interpreter} {answers rest : List Answer} {line : String}
variable {lines before after : List String} {result : Except Failure Unit} {prompt : String}
variable {prompts : Array String} {written : ByteArray} {limit : Nat}

/-- The lines of a course are what the source answers first. -/
theorem Course.exists_answers (course : Course i answers lines result rest) :
    ∃ more, answers = lines.map .line ++ more := by
  cases course with
  | @shutdown lines last rest _ _ => exact ⟨rest, by simp⟩
  | exhausted _ => exact ⟨[], by simp⟩
  | endOfInput _ => exact ⟨_, rfl⟩
  | failure _ => exact ⟨_, rfl⟩

/-- The session goes on until the last line of its course. -/
theorem Course.goesOn_before (course : Course i answers lines result rest)
    (cut : lines = before ++ line :: after) : i.GoesOn before := by
  cases course with
  | @shutdown lines last rest goesOn _ =>
    obtain ⟨more, rfl⟩ : before <+: lines := by
      refine List.prefix_of_prefix_length_le ⟨_, cut.symm⟩ ⟨[last], rfl⟩ ?_
      have length := congrArg List.length cut
      simp only [List.length_append, List.length_cons, List.length_nil] at length
      omega
    exact goesOn.left
  | exhausted goesOn => exact (cut ▸ goesOn).left
  | endOfInput goesOn => exact (cut ▸ goesOn).left
  | failure goesOn => exact (cut ▸ goesOn).left

/-- A course whose reports take more bytes than the limit comes to a line that takes them past it,
and what would be written before the limit is written by then. -/
theorem Course.exists_crossing (course : Course i answers lines result rest)
    (more : limit < (transcript (i.evalLines lines).1).size) :
    ∃ before line later, answers = before.map .line ++ .line line :: later ∧ i.GoesOn before ∧
      (transcript (i.evalLines before).1).size ≤ limit ∧
      limit < (transcript (i.evalLines (before ++ [line])).1).size ∧
      (transcript (i.evalLines lines).1).extract 0 limit =
        (transcript (i.evalLines (before ++ [line])).1).extract 0 limit := by
  obtain ⟨before, line, after, rfl, fits, crosses⟩ := Interpreter.exists_crossing more
  obtain ⟨later, rfl⟩ := course.exists_answers
  refine ⟨before, line, after.map .line ++ later, ?_, course.goesOn_before rfl, fits, crosses, ?_⟩
  · rw [List.map_append, List.map_cons, List.append_assoc, List.cons_append]
  · have split : before ++ line :: after = (before ++ [line]) ++ after := by simp
    rw [split, Interpreter.evalLines_append, extract_transcript_append (Nat.le_of_lt crosses)]

/-- A session ends with the first line whose report does not fit. -/
theorem run_of_crossing {source : Source}
    (answered : source.answers = before.map .line ++ .line line :: rest)
    (goesOn : i.GoesOn before) (fits : (transcript (i.evalLines before).1).size ≤ limit)
    (crosses : limit < (transcript (i.evalLines (before ++ [line])).1).size) :
    run prompt ⟨i, source, .withRoom (some limit)⟩ =
      (.error (.io "failed to write whole buffer"),
        ⟨(i.evalLines (before ++ [line])).2,
          ⟨rest, source.prompts ++ Array.replicate (before.length + 1) prompt⟩,
          ⟨(transcript (i.evalLines (before ++ [line])).1).extract 0 limit, some 0⟩⟩) := by
  obtain ⟨_, prompts⟩ := source
  obtain rfl := answered
  have reports : transcript (i.evalLines (before ++ [line])).1 =
      transcript (i.evalLines before).1 ++
        ((i.evalLines before).2.evalLine line).1.render.toUTF8 := by
    rw [Interpreter.evalLines_concat, transcript_append, transcript_singleton]
  have cut : (transcript (i.evalLines (before ++ [line])).1).extract 0 limit =
      transcript (i.evalLines before).1 ++
        ((i.evalLines before).2.evalLine line).1.render.toUTF8.extract 0
          (limit - (transcript (i.evalLines before).1).size) := by
    rw [reports, ByteArray.extract_append, extract_of_size_le fits, Nat.zero_sub]
  have accepted : (Sink.withRoom (some limit)).accept (transcript (i.evalLines before).1) =
      ⟨transcript (i.evalLines before).1,
        some (limit - (transcript (i.evalLines before).1).size)⟩ := by
    simp [Sink.accept, Sink.withRoom]
  rw [reports, ByteArray.size_append] at crosses
  have lost := Sink.write_of_lt (transcript (i.evalLines before).1)
    (Nat.sub_lt_left_of_lt_add fits crosses)
  rw [← accepted] at lost
  rw [run_lines goesOn (Sink.hasRoom_withRoom fits), run_of_write_error Source.read_line lost, cut,
    Interpreter.evalLines_concat, Array.replicate_succ, Array.append_push]

/-- A sink with limited room holds the beginning of the transcript that an unlimited one would hold,
as far as there is room. If there is room for all of it, nothing else differs either. If not, the
session fails with the first line whose report does not fit: that line has been evaluated, its
value is forgotten, and no other line has been asked for. -/
theorem run_cut_off (prompt : String) (i : Interpreter) (source : Source) (limit : Nat) :
    let whole := run prompt ⟨i, source, .withRoom none⟩
    let cut := run prompt ⟨i, source, .withRoom (some limit)⟩
    cut.2.sink.written = whole.2.sink.written.extract 0 limit ∧
    (whole.2.sink.written.size ≤ limit →
      cut.1 = whole.1 ∧ cut.2.source = whole.2.source ∧ cut.2.interpreter = whole.2.interpreter) ∧
    (limit < whole.2.sink.written.size →
      (∃ cause, cut.1 = .error (.io cause)) ∧
      ∃ lines line rest, source.answers = lines.map .line ++ .line line :: rest ∧
        i.GoesOn lines ∧
        (transcript (i.evalLines lines).1).size ≤ limit ∧
        limit < (transcript (i.evalLines (lines ++ [line])).1).size ∧
        cut.2.source = ⟨rest, source.prompts ++ Array.replicate (lines.length + 1) prompt⟩ ∧
        cut.2.interpreter = (i.evalLines (lines ++ [line])).2 ∧
        cut.2.interpreter.state.value = none) := by
  intro whole cut
  obtain ⟨lines, result, rest, course⟩ := exists_course i source.answers
  have ended : whole = _ := run_of_course course Sink.hasRoom_unlimited
  have written : whole.2.sink.written = transcript (i.evalLines lines).1 := by
    rw [ended]
    exact ByteArray.empty_append
  rw [written]
  by_cases within : (transcript (i.evalLines lines).1).size ≤ limit
  · have same : cut = _ := run_of_course course (Sink.hasRoom_withRoom within)
    refine ⟨?_, fun _ => ?_, fun more => absurd within (Nat.not_le_of_lt more)⟩
    · rw [extract_of_size_le within, same]
      exact ByteArray.empty_append
    · rw [ended, same]
      exact ⟨rfl, rfl, rfl⟩
  · obtain ⟨before, line, later, answered, goesOn, fits, crosses, kept⟩ :=
      course.exists_crossing (Nat.lt_of_not_le within)
    have failed : cut = _ := run_of_crossing answered goesOn fits crosses
    rw [kept, failed]
    refine ⟨rfl, fun fit => absurd fit within, fun _ => ⟨⟨_, rfl⟩, ?_⟩⟩
    refine ⟨before, line, later, answered, goesOn, fits, crosses, rfl, rfl, ?_⟩
    rw [Interpreter.evalLines_concat]
    exact Interpreter.value_evalLine _ _

/-- A sink that fills up inside the report of a fault keeps the beginning of that report. -/
theorem run_cut_off_in_first_report :
    10 < (run "" ⟨.new .empty 128 .space, .ofLines ["1 nope", "2"], .withRoom none⟩
      ).2.sink.written.size ∧
    (run "" ⟨.new .empty 128 .space, .ofLines ["1 nope", "2"], .withRoom (some 10)⟩
      ).2.sink.written = "  Error!: ".toUTF8 ∧
    ∃ cause, (run "" ⟨.new .empty 128 .space, .ofLines ["1 nope", "2"], .withRoom (some 10)⟩
      ).1 = .error (.io cause) := by
  have outcomes : ((Interpreter.new .empty 128 .space).evalLines ["1 nope", "2"]).1 =
      [.failed (.unknownWord "nope"), .completed none] := by cbv
  have goesOn : Interpreter.GoesOn (.new .empty 128 .space) ["1 nope", "2"] := by
    rw [Interpreter.GoesOn, outcomes]
    decide
  have written : (run "" ⟨.new .empty 128 .space, .ofLines ["1 nope", "2"], .withRoom none⟩
      ).2.sink.written =
        transcript [.failed (.unknownWord "nope"), .completed none] := by
    have ran : run "" ⟨.new .empty 128 .space, .ofLines ["1 nope", "2"], .withRoom none⟩ = _ :=
      run_of_course (.exhausted goesOn) Sink.hasRoom_unlimited
    rw [ran, outcomes]
    exact ByteArray.empty_append
  obtain ⟨kept, -, fails⟩ :=
    run_cut_off "" (.new .empty 128 .space) (.ofLines ["1 nope", "2"]) 10
  rw [written] at kept fails ⊢
  have long : 10 < (transcript [.failed (.unknownWord "nope"), .completed none]).size := by decide
  refine ⟨long, kept.trans ?_, (fails long).1⟩
  decide

end

end Session

end Forth
