import Mathlib
import Forth.Session

/-!
# The transcript of a session

A session is a course of lines: lines after which it goes on, and then the line that shuts it down
or an answer of the source that is no line. Every source gives such a course (`exists_course`), and
neither the prompt nor the sink has a part in it.

As long as the sink has room, each line of the course is read, evaluated and reported before the
next one is asked for. The run is followed line by line through the part where the session goes on
(`run_lines`); what ends the course then ends the run, and nothing more is read (`run_of_course`).
-/

namespace Forth

/-- The reports of lines that ended so, one after the other. -/
def transcript (outcomes : List Outcome) : ByteArray :=
  (String.join (outcomes.map Outcome.render)).toUTF8

@[simp] theorem transcript_nil : transcript [] = .empty := rfl

@[simp] theorem transcript_append (os ps : List Outcome) :
    transcript (os ++ ps) = transcript os ++ transcript ps := by
  simp [transcript]

theorem transcript_singleton (o : Outcome) : transcript [o] = o.render.toUTF8 := by
  simp [transcript]

theorem transcript_cons (o : Outcome) (os : List Outcome) :
    transcript (o :: os) = o.render.toUTF8 ++ transcript os := by
  simp [transcript]

namespace Interpreter

/-- Evaluates lines one after the other. -/
def evalLines (i : Interpreter) : List String → List Outcome × Interpreter
  | [] => ([], i)
  | line :: lines =>
    let (outcome, i) := i.evalLine line
    let (outcomes, i) := i.evalLines lines
    (outcome :: outcomes, i)

/-- None of the lines shuts the session down. -/
def GoesOn (i : Interpreter) (lines : List String) : Prop :=
  ∀ o ∈ (i.evalLines lines).1, o.isShutdown = false

variable {i : Interpreter} {line : String} {lines more : List String}

theorem evalLines_cons (i : Interpreter) (line : String) (lines : List String) :
    i.evalLines (line :: lines) =
      ((i.evalLine line).1 :: ((i.evalLine line).2.evalLines lines).1,
        ((i.evalLine line).2.evalLines lines).2) := rfl

theorem evalLines_append (i : Interpreter) (lines more : List String) :
    i.evalLines (lines ++ more) =
      ((i.evalLines lines).1 ++ ((i.evalLines lines).2.evalLines more).1,
        ((i.evalLines lines).2.evalLines more).2) := by
  induction lines generalizing i with
  | nil => rfl
  | cons line lines ih => rw [List.cons_append, evalLines_cons, evalLines_cons, ih]; rfl

theorem evalLines_concat (i : Interpreter) (lines : List String) (line : String) :
    i.evalLines (lines ++ [line]) =
      ((i.evalLines lines).1 ++ [((i.evalLines lines).2.evalLine line).1],
        ((i.evalLines lines).2.evalLine line).2) :=
  evalLines_append i lines [line]

theorem goesOn_nil (i : Interpreter) : i.GoesOn [] := by
  intro o member
  cases member

theorem goesOn_cons :
    i.GoesOn (line :: lines) ↔
      (i.evalLine line).1.isShutdown = false ∧ (i.evalLine line).2.GoesOn lines :=
  List.forall_mem_cons

theorem GoesOn.left (h : i.GoesOn (lines ++ more)) : i.GoesOn lines := by
  intro o member
  apply h
  rw [evalLines_append]
  exact List.mem_append_left _ member

end Interpreter

namespace Session

namespace Sink

/-- There is room for so many bytes. -/
def HasRoom (sink : Sink) (n : Nat) : Prop := ∀ room ∈ sink.room, n ≤ room

/-- The sink after bytes for which there was room. -/
def accept (sink : Sink) (bytes : ByteArray) : Sink :=
  ⟨sink.written ++ bytes, sink.room.map (· - bytes.size)⟩

@[simp] theorem accept_empty (sink : Sink) : sink.accept .empty = sink := by
  simp [accept]

theorem accept_append (sink : Sink) (a b : ByteArray) :
    sink.accept (a ++ b) = (sink.accept a).accept b := by
  simp [accept, ByteArray.append_assoc, Nat.sub_sub, Function.comp_def]

theorem hasRoom_unlimited {written : ByteArray} {n : Nat} : HasRoom ⟨written, none⟩ n := by
  intro room limited
  cases limited

theorem hasRoom_withRoom {room n : Nat} (h : n ≤ room) : (withRoom (some room)).HasRoom n := by
  intro room limited
  cases limited
  exact h

theorem HasRoom.mono {sink : Sink} {m n : Nat} (h : sink.HasRoom n) (le : m ≤ n) :
    sink.HasRoom m :=
  fun room limited => Nat.le_trans le (h room limited)

theorem HasRoom.accept {sink : Sink} {a : ByteArray} {n : Nat} (h : sink.HasRoom (a.size + n)) :
    (sink.accept a).HasRoom n := by
  intro room limited
  obtain ⟨before, known, rfl⟩ := Option.map_eq_some_iff.1 limited
  have := h before known
  omega

theorem write_of_hasRoom {sink : Sink} {text : String} (h : sink.HasRoom text.toUTF8.size) :
    sink.write text = (.ok (), sink.accept text.toUTF8) := by
  obtain ⟨written, room⟩ := sink
  cases room with
  | none => rfl
  | some room => exact if_pos (h room rfl)

theorem write_of_lt (written : ByteArray) {room : Nat} {text : String}
    (h : room < text.toUTF8.size) :
    write ⟨written, some room⟩ text =
      (.error (.io "failed to write whole buffer"),
        ⟨written ++ text.toUTF8.extract 0 room, some 0⟩) :=
  if_neg (Nat.not_le_of_lt h)

end Sink

/-- The course of a session that starts with the given interpreter and answers, when no report is
lost: the lines that it evaluates, what it ends with, and the answers that it leaves. -/
inductive Course (i : Interpreter) :
    List Answer → List String → Except Failure Unit → List Answer → Prop where
  | shutdown {lines : List String} {last : String} {rest : List Answer} (goesOn : i.GoesOn lines)
      (shut : ((i.evalLines lines).2.evalLine last).1.isShutdown = true) :
      Course i (lines.map .line ++ .line last :: rest) (lines ++ [last]) (.ok ()) rest
  | exhausted {lines : List String} (goesOn : i.GoesOn lines) :
      Course i (lines.map .line) lines (.error .endOfInput) []
  | endOfInput {lines : List String} {rest : List Answer} (goesOn : i.GoesOn lines) :
      Course i (lines.map .line ++ .endOfInput :: rest) lines (.error .endOfInput) rest
  | failure {lines : List String} {cause : Failure} {rest : List Answer}
      (goesOn : i.GoesOn lines) :
      Course i (lines.map .line ++ .failure cause :: rest) lines (.error cause) rest

/-- How often the source is asked: once for each line, and once more unless the last line shuts
the session down. -/
def reads (lines : List String) : Except Failure Unit → Nat
  | .ok () => lines.length
  | .error _ => lines.length + 1

section

variable {i : Interpreter} {answers rest : List Answer} {line : String} {lines : List String}
variable {result : Except Failure Unit} {prompt : String} {prompts : Array String} {sink : Sink}

namespace Course

/-- A line after which the session goes on comes before any course. -/
theorem cons (goesOn : (i.evalLine line).1.isShutdown = false)
    (course : Course (i.evalLine line).2 answers lines result rest) :
    Course i (.line line :: answers) (line :: lines) result rest := by
  cases course with
  | shutdown later shut => exact .shutdown (Interpreter.goesOn_cons.2 ⟨goesOn, later⟩) shut
  | exhausted later => exact .exhausted (Interpreter.goesOn_cons.2 ⟨goesOn, later⟩)
  | endOfInput later => exact .endOfInput (Interpreter.goesOn_cons.2 ⟨goesOn, later⟩)
  | failure later => exact .failure (Interpreter.goesOn_cons.2 ⟨goesOn, later⟩)

end Course

/-- Every session has a course. -/
theorem exists_course (i : Interpreter) (answers : List Answer) :
    ∃ lines result rest, Course i answers lines result rest := by
  induction answers generalizing i with
  | nil => exact ⟨[], _, [], .exhausted i.goesOn_nil⟩
  | cons answer answers ih =>
    cases answer with
    | endOfInput => exact ⟨[], _, answers, .endOfInput i.goesOn_nil⟩
    | failure cause => exact ⟨[], _, answers, .failure i.goesOn_nil⟩
    | line text =>
      cases shut : (i.evalLine text).1.isShutdown with
      | true => exact ⟨[text], _, answers, .shutdown i.goesOn_nil shut⟩
      | false =>
        obtain ⟨lines, result, rest, later⟩ := ih (i.evalLine text).2
        exact ⟨text :: lines, result, rest, later.cons shut⟩

/-- While the session goes on and there is room, lines are read, evaluated and reported one by
one. -/
theorem run_lines (goesOn : i.GoesOn lines)
    (fits : sink.HasRoom (transcript (i.evalLines lines).1).size) :
    run prompt ⟨i, ⟨lines.map .line ++ rest, prompts⟩, sink⟩ =
      run prompt ⟨(i.evalLines lines).2,
        ⟨rest, prompts ++ Array.replicate lines.length prompt⟩,
        sink.accept (transcript (i.evalLines lines).1)⟩ := by
  induction lines generalizing i prompts sink with
  | nil => simp [Interpreter.evalLines]
  | cons line lines ih =>
    obtain ⟨first, later⟩ := Interpreter.goesOn_cons.1 goesOn
    rw [Interpreter.evalLines_cons, transcript_cons] at fits ⊢
    rw [ByteArray.size_append] at fits
    have written := Sink.write_of_hasRoom (fits.mono (Nat.le_add_right _ _))
    have asked : prompts ++ Array.replicate (lines.length + 1) prompt =
        prompts.push prompt ++ Array.replicate lines.length prompt := by
      rw [Array.replicate_succ', ← Array.append_assoc, Array.push_eq_append]
    rw [List.map_cons, List.cons_append, run_of_line Source.read_line written first,
      ih later fits.accept, Sink.accept_append, List.length_cons, asked]

/-- A session whose sink has room for the reports takes its course. -/
theorem run_of_course (course : Course i answers lines result rest)
    (fits : sink.HasRoom (transcript (i.evalLines lines).1).size) :
    run prompt ⟨i, ⟨answers, prompts⟩, sink⟩ =
      (result, ⟨(i.evalLines lines).2,
        ⟨rest, prompts ++ Array.replicate (reads lines result) prompt⟩,
        sink.accept (transcript (i.evalLines lines).1)⟩) := by
  have asked (n : Nat) : (prompts ++ Array.replicate n prompt).push prompt =
      prompts ++ Array.replicate (n + 1) prompt := by
    rw [Array.replicate_succ, Array.append_push]
  cases course with
  | shutdown goesOn shut =>
    rw [Interpreter.evalLines_concat, transcript_append, transcript_singleton] at fits ⊢
    rw [ByteArray.size_append] at fits
    rw [run_lines goesOn (fits.mono (Nat.le_add_right _ _)),
      run_of_shutdown Source.read_line (Sink.write_of_hasRoom fits.accept) shut, asked,
      Sink.accept_append, reads, List.length_append, List.length_singleton]
  | @exhausted lines goesOn =>
    have complete : lines.map Answer.line = lines.map .line ++ [] := (List.append_nil _).symm
    rw [complete, run_lines goesOn fits, run_of_read_none Source.read_nil, asked, reads]
  | endOfInput goesOn =>
    rw [run_lines goesOn fits, run_of_read_none Source.read_endOfInput, asked, reads]
  | failure goesOn =>
    rw [run_lines goesOn fits, run_of_read_error Source.read_failure, asked, reads]

/-- Every session with an unlimited sink takes its course: it evaluates the lines of the course in
order and no others, and its sink holds one report for each of them and nothing else. It asks once
for each line, and once more if the lines end before it is shut down, always with its prompt. -/
theorem run_takes_course (prompt : String) (i : Interpreter) (source : Source)
    (written : ByteArray) :
    (∃ lines result rest, Course i source.answers lines result rest) ∧
    ∀ lines result rest, Course i source.answers lines result rest →
      run prompt ⟨i, source, ⟨written, none⟩⟩ =
        (result, ⟨(i.evalLines lines).2,
          ⟨rest, source.prompts ++ Array.replicate (reads lines result) prompt⟩,
          ⟨written ++ transcript (i.evalLines lines).1, none⟩⟩) := by
  refine ⟨exists_course i source.answers, ?_⟩
  intro lines result rest course
  exact run_of_course course Sink.hasRoom_unlimited

/-- A session that is shut down by its second line leaves the third to the source. -/
theorem run_left_by_second_line :
    Course (.new .empty 128 .space) [.line "1 .", .line "bye", .line "2 ."] ["1 .", "bye"]
      (.ok ()) [.line "2 ."] ∧
    run "> " ⟨.new .empty 128 .space, .ofLines ["1 .", "bye", "2 ."], .withRoom none⟩ =
      (.ok (), ⟨⟨.empty, 128, .space, { State.initial with status := .shutdown }⟩,
        ⟨[.line "2 ."], #["> ", "> "]⟩, ⟨"  1 OK!\n  Exiting...\n".toUTF8, none⟩⟩) := by
  have goesOn : Interpreter.GoesOn (.new .empty 128 .space) ["1 ."] := by
    have outcomes : ((Interpreter.new .empty 128 .space).evalLines ["1 ."]).1 =
        [.completed (some (.integer 1))] := by cbv
    rw [Interpreter.GoesOn, outcomes]
    decide
  have shut : (((Interpreter.new .empty 128 .space).evalLines ["1 ."]).2.evalLine
      "bye").1.isShutdown = true := by cbv
  have course : Course (.new .empty 128 .space) [.line "1 .", .line "bye", .line "2 ."]
      ["1 .", "bye"] (.ok ()) [.line "2 ."] := .shutdown goesOn shut
  have evaluated : (Interpreter.new .empty 128 .space).evalLines ["1 .", "bye"] =
      ([.completed (some (.integer 1)), .shutdown],
        ⟨.empty, 128, .space, { State.initial with status := .shutdown }⟩) := by cbv
  have reported : transcript [.completed (some (.integer 1)), .shutdown] =
      "  1 OK!\n  Exiting...\n".toUTF8 := by cbv
  have ran := (run_takes_course "> " (.new .empty 128 .space) (.ofLines ["1 .", "bye", "2 ."])
    .empty).2 _ _ _ course
  rw [evaluated, reported, ByteArray.empty_append] at ran
  exact ⟨course, ran⟩

end

end Session

end Forth
