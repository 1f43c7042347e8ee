import Forth.Interpreter

/-!
# Sessions

A session reads a line, evaluates it, writes its report, and goes on until a line shuts it
down. Lines come from a source, a finite sequence of answers after which the input has
ended for good; reports go to a sink, which may have room for a number of bytes only. An
input that ends before shutdown is a failure like any other of the source or the sink.
-/

namespace Forth

namespace Session

/-- What ends a session other than shutdown. -/
inductive Failure where
  | io (cause : String)
  | endOfInput
  | input (cause : String)
  deriving DecidableEq, Inhabited

namespace Failure

def message : Failure → String
  | io cause => s!"I/O error: {cause}"
  | endOfInput => "Unable to read line: end of input"
  | input cause => s!"Unable to read line: {cause}"

/-- The deeper cause of the failure, in words. -/
def source : Failure → Option String
  | io cause => some cause
  | _ => none

end Failure

/-- What a source answers when it is asked for a line. -/
inductive Answer where
  | line (text : String)
  | endOfInput
  | failure (cause : Failure)
  deriving DecidableEq

/-- Where lines come from. -/
structure Source where
  /-- The answers still to be given. -/
  answers : List Answer
  /-- The prompts that the source was asked with. -/
  prompts : Array String
  deriving DecidableEq

namespace Source

def ofAnswers (answers : List Answer) : Source := ⟨answers, #[]⟩

def ofLines (lines : List String) : Source := ofAnswers (lines.map .line)

/-- Asks for a line. There is none when the input has ended. -/
def read (source : Source) (prompt : String) : Except Failure (Option String) × Source :=
  let after : Source := ⟨source.answers.tail, source.prompts.push prompt⟩
  match source.answers with
  | [] => (.ok none, after)
  | .line text :: _ => (.ok (some text), after)
  | .endOfInput :: _ => (.ok none, after)
  | .failure cause :: _ => (.error cause, after)

section

variable {prompt : String} {rest : List Answer} {prompts : Array String}

theorem read_nil : (⟨[], prompts⟩ : Source).read prompt = (.ok none, ⟨[], prompts.push prompt⟩) :=
  rfl

theorem read_line {text : String} :
    (⟨.line text :: rest, prompts⟩ : Source).read prompt =
      (.ok (some text), ⟨rest, prompts.push prompt⟩) := rfl

theorem read_endOfInput :
    (⟨.endOfInput :: rest, prompts⟩ : Source).read prompt =
      (.ok none, ⟨rest, prompts.push prompt⟩) := rfl

theorem read_failure {cause : Failure} :
    (⟨.failure cause :: rest, prompts⟩ : Source).read prompt =
      (.error cause, ⟨rest, prompts.push prompt⟩) := rfl

end

theorem length_read {source : Source} {prompt line : String}
    (h : (source.read prompt).1 = .ok (some line)) :
    (source.read prompt).2.answers.length < source.answers.length := by
  obtain ⟨answers, prompts⟩ := source
  cases answers with
  | nil =>
    rw [read_nil] at h
    cases h
  | cons answer rest => cases answer <;> exact Nat.lt_succ_self rest.length

end Source

/-- Where reports go. -/
structure Sink where
  written : ByteArray
  /-- How many more bytes there is room for, if there is a limit. -/
  room : Option Nat

namespace Sink

def withRoom (room : Option Nat) : Sink := ⟨.empty, room⟩

/-- Writes a text, as far as there is room for it. -/
def write (sink : Sink) (text : String) : Except Failure Unit × Sink :=
  let bytes := text.toUTF8
  match sink.room with
  | none => (.ok (), ⟨sink.written ++ bytes, none⟩)
  | some room =>
    if bytes.size ≤ room then (.ok (), ⟨sink.written ++ bytes, some (room - bytes.size)⟩)
    else
      (.error (.io "failed to write whole buffer"),
        ⟨sink.written ++ bytes.extract 0 room, some 0⟩)

end Sink

end Session

/-- A session under way. -/
structure Session where
  interpreter : Interpreter
  source : Session.Source
  sink : Session.Sink

namespace Session

set_option linter.unusedVariables false in
/-- Runs a session to its end. -/
def run (prompt : String) (session : Session) : Except Failure Unit × Session :=
  match h : session.source.read prompt with
  | (.error cause, source) => (.error cause, { session with source })
  | (.ok none, source) => (.error .endOfInput, { session with source })
  | (.ok (some line), source) =>
    let (outcome, interpreter) := session.interpreter.evalLine line
    match session.sink.write outcome.render with
    | (.error cause, sink) => (.error cause, ⟨interpreter, source, sink⟩)
    | (.ok (), sink) =>
      if outcome.isShutdown then (.ok (), ⟨interpreter, source, sink⟩)
      else run prompt ⟨interpreter, source, sink⟩
termination_by session.source.answers.length
decreasing_by
  have shorter := Source.length_read (congrArg Prod.fst h)
  rwa [h] at shorter

/-! ## What a session does next, by what the source and the sink answer -/

section

variable {prompt line : String} {session : Session} {source : Source} {sink : Sink}
variable {cause : Failure}

theorem run_of_read_error (h : session.source.read prompt = (.error cause, source)) :
    run prompt session = (.error cause, { session with source }) := by
  rw [run, h]

theorem run_of_read_none (h : session.source.read prompt = (.ok none, source)) :
    run prompt session = (.error .endOfInput, { session with source }) := by
  rw [run, h]

/-- The line whose report cannot be written is evaluated all the same. -/
theorem run_of_write_error (h : session.source.read prompt = (.ok (some line), source))
    (lost : session.sink.write (session.interpreter.evalLine line).1.render =
      (.error cause, sink)) :
    run prompt session = (.error cause, ⟨(session.interpreter.evalLine line).2, source, sink⟩) := by
  rw [run, h]
  dsimp only
  rw [lost]

theorem run_of_shutdown (h : session.source.read prompt = (.ok (some line), source))
    (written : session.sink.write (session.interpreter.evalLine line).1.render = (.ok (), sink))
    (shut : (session.interpreter.evalLine line).1.isShutdown = true) :
    run prompt session = (.ok (), ⟨(session.interpreter.evalLine line).2, source, sink⟩) := by
  rw [run, h]
  dsimp only
  rw [written]
  exact if_pos shut

theorem run_of_line (h : session.source.read prompt = (.ok (some line), source))
    (written : session.sink.write (session.interpreter.evalLine line).1.render = (.ok (), sink))
    (goesOn : (session.interpreter.evalLine line).1.isShutdown = false) :
    run prompt session = run prompt ⟨(session.interpreter.evalLine line).2, source, sink⟩ := by
  rw [run, h]
  dsimp only
  rw [written]
  exact if_neg (Bool.eq_false_iff.1 goesOn)

/-- Induction on the lines that a session goes on after. -/
theorem line_induction {P : Session → Prop} (prompt : String)
    (readError : ∀ session cause source,
      session.source.read prompt = (.error cause, source) → P session)
    (readNone : ∀ session source, session.source.read prompt = (.ok none, source) → P session)
    (writeError : ∀ session line source cause sink,
      session.source.read prompt = (.ok (some line), source) →
      session.sink.write (session.interpreter.evalLine line).1.render = (.error cause, sink) →
      P session)
    (shutdown : ∀ session line source sink,
      session.source.read prompt = (.ok (some line), source) →
      session.sink.write (session.interpreter.evalLine line).1.render = (.ok (), sink) →
      (session.interpreter.evalLine line).1.isShutdown = true → P session)
    (goesOn : ∀ session line source sink,
      session.source.read prompt = (.ok (some line), source) →
      session.sink.write (session.interpreter.evalLine line).1.render = (.ok (), sink) →
      (session.interpreter.evalLine line).1.isShutdown = false →
      P ⟨(session.interpreter.evalLine line).2, source, sink⟩ → P session)
    (session : Session) : P session := by
  induction session using run.induct prompt with
  | case1 session cause source asked => exact readError session cause source asked
  | case2 session source asked => exact readNone session source asked
  | case3 session line source asked outcome interpreter evaluated cause sink lost =>
    apply writeError session line source cause sink asked
    rw [evaluated, lost]
  | case4 session line source asked outcome interpreter evaluated sink written shut =>
    apply shutdown session line source sink asked
    · rw [evaluated, written]
    · rw [evaluated, shut]
  | case5 session line source asked outcome interpreter evaluated sink written unshut ih =>
    apply goesOn session line source sink asked
    · rw [evaluated, written]
    · rw [evaluated]
      exact Bool.eq_false_iff.2 unshut
    · rw [evaluated]
      exact ih

end

/-- What every line keeps, a session keeps, and it is shut down by a line that starts with it. -/
theorem run_induction {P : Interpreter → Prop} (prompt : String) (session : Session)
    (keeps : ∀ i line, P i → P (i.evalLine line).2) (start : P session.interpreter) :
    P (run prompt session).2.interpreter ∧
      ((run prompt session).1 = .ok () →
        ∃ i line, P i ∧ (i.evalLine line).1.isShutdown = true) := by
  induction session using line_induction prompt with
  | readError session cause source asked =>
    rw [run_of_read_error asked]
    exact ⟨start, nofun⟩
  | readNone session source asked =>
    rw [run_of_read_none asked]
    exact ⟨start, nofun⟩
  | writeError session line source cause sink asked lost =>
    rw [run_of_write_error asked lost]
    exact ⟨keeps session.interpreter line start, nofun⟩
  | shutdown session line source sink asked written shut =>
    rw [run_of_shutdown asked written shut]
    exact ⟨keeps session.interpreter line start,
      fun _ => ⟨session.interpreter, line, start, shut⟩⟩
  | goesOn session line source sink asked written unshut ih =>
    rw [run_of_line asked written unshut]
    exact ih (keeps session.interpreter line start)

end Session

end Forth
