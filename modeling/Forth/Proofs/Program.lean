import Mathlib
import Forth.Program
import Forth.Proofs.LineReader

/-!
# What the program does

A console that works in a state may stand for a source and a sink: asked for a line or handed a
text, it answers as they do, and its state goes along with them. A session at such a console ends
as it does over the source and the sink (`Session.converse_of_standsFor`), by induction on the lines
that it goes on after.

A host that keeps the standard streams in memory is such a console for the lines of its input and
a sink without a limit. The program that runs there does what `respond` answers
(`CommandLine.program_inMemory`).
-/

namespace Forth

/-! ## One step after another in a state -/

section

variable {α β τ : Type} {s s' : τ}

theorem run_bind_of_run {x : StateM τ α} {f : α → StateM τ β} {a : α} (h : x.run s = (a, s')) :
    (x >>= f).run s = (f a).run s' := by
  rw [StateT.run_bind, h]
  rfl

variable [Nonempty β] {f : α → StateM τ (α ⊕ β)} {a next : α} {result : β}

theorem run_repeatM_of_inl (h : (f a).run s = (.inl next, s')) :
    (repeatM f a).run s = (repeatM f next).run s' := by
  have : Nonempty τ := ⟨s⟩
  rw [repeatM_eq_of_monadTail, repeatM.body, run_bind_of_run h]

theorem run_repeatM_of_inr (h : (f a).run s = (.inr result, s')) :
    (repeatM f a).run s = (result, s') := by
  have : Nonempty τ := ⟨s⟩
  rw [repeatM_eq_of_monadTail, repeatM.body, run_bind_of_run h]
  rfl

end

/-! ## A session at a console -/

namespace Session

variable {τ : Type} {console : Console (StateM τ)} {prompt line : String} {i : Interpreter}
variable {s s' s'' : τ} {cause : Failure}

theorem run_exchange_of_read_error (h : (console.read prompt).run s = (.error cause, s')) :
    (exchange console prompt i).run s = (.inr (.error cause), s') := by
  rw [exchange, run_bind_of_run h]
  rfl

theorem run_exchange_of_read_none (h : (console.read prompt).run s = (.ok none, s')) :
    (exchange console prompt i).run s = (.inr (.error .endOfInput), s') := by
  rw [exchange, run_bind_of_run h]
  rfl

theorem run_exchange_of_write_error (h : (console.read prompt).run s = (.ok (some line), s'))
    (lost : (console.write (i.evalLine line).1.render).run s' = (.error cause, s'')) :
    (exchange console prompt i).run s = (.inr (.error cause), s'') := by
  rw [exchange, run_bind_of_run h, run_bind_of_run lost]
  rfl

theorem run_exchange_of_shutdown (h : (console.read prompt).run s = (.ok (some line), s'))
    (written : (console.write (i.evalLine line).1.render).run s' = (.ok (), s''))
    (shut : (i.evalLine line).1.isShutdown = true) :
    (exchange console prompt i).run s = (.inr (.ok ()), s'') := by
  rw [exchange, run_bind_of_run h, run_bind_of_run written, shut]
  rfl

theorem run_exchange_of_line (h : (console.read prompt).run s = (.ok (some line), s'))
    (written : (console.write (i.evalLine line).1.render).run s' = (.ok (), s''))
    (goesOn : (i.evalLine line).1.isShutdown = false) :
    (exchange console prompt i).run s = (.inl (i.evalLine line).2, s'') := by
  rw [exchange, run_bind_of_run h, run_bind_of_run written, goesOn]
  rfl

/-- A console whose states represent sources and sinks: asked in a state, it answers as they do, and
leaves a state that represents what they leave. -/
structure Console.StandsFor (console : Console (StateM τ)) (rep : Source → Sink → τ → Prop) :
    Prop where
  read {source source' : Source} {sink : Sink} {s : τ} {prompt : String}
    {answer : Except Failure (Option String)} (represented : rep source sink s)
    (asked : source.read prompt = (answer, source')) :
    ∃ s', (console.read prompt).run s = (answer, s') ∧ rep source' sink s'
  write {source : Source} {sink sink' : Sink} {s : τ} {text : String}
    {result : Except Failure Unit} (represented : rep source sink s)
    (written : sink.write text = (result, sink')) :
    ∃ s', (console.write text).run s = (result, s') ∧ rep source sink' s'

/-- At a console that stands for its source and its sink, a session ends as it does over them. -/
theorem converse_of_standsFor {rep : Source → Sink → τ → Prop} (h : console.StandsFor rep)
    (prompt : String) {session : Session} (represented : rep session.source session.sink s) :
    ∃ s', (converse console prompt session.interpreter).run s = ((run prompt session).1, s') ∧
      rep (run prompt session).2.source (run prompt session).2.sink s' := by
  induction session using line_induction prompt generalizing s with
  | readError session cause source asked =>
    obtain ⟨s', answer, kept⟩ := h.read represented asked
    rw [run_of_read_error asked]
    exact ⟨s', run_repeatM_of_inr (run_exchange_of_read_error answer), kept⟩
  | readNone session source asked =>
    obtain ⟨s', answer, kept⟩ := h.read represented asked
    rw [run_of_read_none asked]
    exact ⟨s', run_repeatM_of_inr (run_exchange_of_read_none answer), kept⟩
  | writeError session line source cause sink asked lost =>
    obtain ⟨s', answer, kept⟩ := h.read represented asked
    obtain ⟨s'', report, left⟩ := h.write kept lost
    rw [run_of_write_error asked lost]
    exact ⟨s'', run_repeatM_of_inr (run_exchange_of_write_error answer report), left⟩
  | shutdown session line source sink asked written shut =>
    obtain ⟨s', answer, kept⟩ := h.read represented asked
    obtain ⟨s'', report, left⟩ := h.write kept written
    rw [run_of_shutdown asked written shut]
    exact ⟨s'', run_repeatM_of_inr (run_exchange_of_shutdown answer report shut), left⟩
  | goesOn session line source sink asked written unshut ih =>
    obtain ⟨s', answer, kept⟩ := h.read represented asked
    obtain ⟨s'', report, left⟩ := h.write kept written
    obtain ⟨last, ended, leftLast⟩ := ih left
    rw [run_of_line asked written unshut]
    refine ⟨last, ?_, leftLast⟩
    exact (run_repeatM_of_inl (run_exchange_of_line answer report unshut)).trans ended

end Session

namespace Text.Lines

/-- A source of the lines of some bytes answers with the text of the first of them. -/
theorem read_ofBytes (bytes : List UInt8) (prompts : Array String) (prompt : String) :
    (⟨(ofBytes bytes).map .line, prompts⟩ : Session.Source).read prompt =
      (.ok (textOf? (readUntilNewline bytes).1),
        ⟨(ofBytes (readUntilNewline bytes).2).map .line, prompts.push prompt⟩) := by
  induction bytes using lines_induction with
  | last line whole =>
    rw [readUntilNewline_of_no_newline whole, ofBytes_of_no_newline whole]
    by_cases empty : line = []
    · rw [empty]
      rfl
    · rw [textOf?_of_no_newline whole empty, unended, if_neg (by rwa [List.isEmpty_iff])]
      rfl
  | more line rest whole =>
    rw [readUntilNewline_append_newline whole, ofBytes_append_newline whole,
      textOf?_append_newline]
    rfl

end Text.Lines

/-! ## The program in memory -/

namespace CommandLine

/-- The standard streams as a memory. -/
structure Memory where
  /-- The bytes that are still to be read. -/
  input : List UInt8
  output : ByteArray
  /-- What has been said on standard error. -/
  complaints : List String

/-- A host that has some files and keeps the standard streams in a memory. -/
def Host.inMemory (file : String → Option ByteArray) : Host (StateM Memory) where
  file path := return file path
  nextByte := modifyGet fun memory =>
    (.ok memory.input.head?, { memory with input := memory.input.tail })
  write text := modifyGet fun memory =>
    (.ok (), { memory with output := memory.output ++ text.toUTF8 })
  complain text := modify fun memory =>
    { memory with complaints := memory.complaints ++ [text] }

section

variable {args : List String} {file file' : String → Option ByteArray}

theorem run_extend_newline (read bs : List UInt8) (output : ByteArray) (complaints : List String) :
    ((Host.inMemory file).extend read).run ⟨Text.Lines.newline :: bs, output, complaints⟩ =
      (.inr (.ok (Text.Lines.newline :: read).reverse), ⟨bs, output, complaints⟩) := rfl

theorem run_extend_of_ne {b : UInt8} (h : b ≠ Text.Lines.newline) (read bs : List UInt8)
    (output : ByteArray) (complaints : List String) :
    ((Host.inMemory file).extend read).run ⟨b :: bs, output, complaints⟩ =
      (.inl (b :: read), ⟨bs, output, complaints⟩) := by
  have next : (Host.inMemory file).nextByte.run ⟨b :: bs, output, complaints⟩ =
      (.ok (some b), ⟨bs, output, complaints⟩) := rfl
  rw [Host.extend, run_bind_of_run next]
  dsimp only
  rw [if_neg h]
  rfl

theorem run_repeatM_extend (read : List UInt8) (memory : Memory) :
    (repeatM (Host.inMemory file).extend read).run memory =
      (.ok (read.reverse ++ (Text.Lines.readUntilNewline memory.input).1),
        { memory with input := (Text.Lines.readUntilNewline memory.input).2 }) := by
  obtain ⟨input, output, complaints⟩ := memory
  induction input generalizing read with
  | nil =>
    rw [Text.Lines.readUntilNewline, List.append_nil]
    exact run_repeatM_of_inr rfl
  | cons b bs ih =>
    by_cases ends : b = Text.Lines.newline
    · rw [ends, run_repeatM_of_inr (run_extend_newline read bs output complaints),
        Text.Lines.readUntilNewline, if_pos rfl, List.reverse_cons]
    · rw [run_repeatM_of_inl (run_extend_of_ne ends read bs output complaints), ih]
      simp only [Text.Lines.readUntilNewline, if_neg ends, List.reverse_cons, List.append_assoc,
        List.singleton_append]

/-- The host takes the bytes of a line as the reader of lines does. -/
theorem run_readUntilNewline (memory : Memory) :
    (Host.inMemory file).readUntilNewline.run memory =
      (.ok (Text.Lines.readUntilNewline memory.input).1,
        { memory with input := (Text.Lines.readUntilNewline memory.input).2 }) :=
  run_repeatM_extend [] memory

/-- The lines of the input are those of the source, and the output is a sink without a limit.
Nothing has been said on standard error. -/
def Memory.Represents (source : Session.Source) (sink : Session.Sink) (memory : Memory) : Prop :=
  source.answers = (Text.Lines.ofBytes memory.input).map .line ∧
    sink = ⟨memory.output, none⟩ ∧ memory.complaints = []

theorem console_standsFor (file : String → Option ByteArray) :
    (Host.inMemory file).console.StandsFor Memory.Represents where
  read {source source' sink memory prompt answer} represented asked := by
    obtain ⟨answers, prompts⟩ := source
    obtain ⟨rfl, same, silent⟩ := represented
    rw [Text.Lines.read_ofBytes] at asked
    cases asked
    refine ⟨{ memory with input := (Text.Lines.readUntilNewline memory.input).2 }, ?_,
      rfl, same, silent⟩
    rw [Host.console, run_bind_of_run (run_readUntilNewline memory)]
    rfl
  write {source sink sink' memory text result} represented written := by
    obtain ⟨lines, rfl, silent⟩ := represented
    cases written
    exact ⟨{ memory with output := memory.output ++ text.toUTF8 }, rfl, lines, rfl, silent⟩

/-- What a command line leads to depends on the one file that it names. -/
theorem task_congr (h : ∀ path, configPath? args = some path → file path = file' path) :
    task args file = task args file' := by
  rw [task, task]
  cases parsed : Options.ofArgs args with
  | error refusal => cases refusal <;> rfl
  | ok o =>
    have same : o.effective file = o.effective file' := by
      rw [Options.effective, Options.effective]
      cases given : o.config with
      | none => rfl
      | some path =>
        have named : configPath? args = some path := by
          rw [configPath?, parsed]
          exact given
        dsimp only
        rw [h path named]
    dsimp only
    rw [same]

/-- The host looks at that file alone. -/
theorem run_config (args : List String) (file : String → Option ByteArray) (memory : Memory) :
    ∃ content, ((Host.inMemory file).config args).run memory = (content, memory) ∧
      task args (fun _ => content) = task args file := by
  cases named : configPath? args with
  | none =>
    refine ⟨none, by rw [Host.config, named]; rfl, task_congr ?_⟩
    rw [named]
    exact nofun
  | some path =>
    refine ⟨file path, by rw [Host.config, named]; rfl, task_congr ?_⟩
    rw [named]
    rintro _ ⟨⟩
    rfl

theorem run_write_first (text : String) (input : List UInt8) :
    ((Host.inMemory file).write text).run ⟨input, .empty, []⟩ =
      (.ok (), ⟨input, text.toUTF8, []⟩) := by
  change (_, (⟨input, ByteArray.empty ++ text.toUTF8, []⟩ : Memory)) = _
  rw [ByteArray.empty_append]

/-- A session in memory writes what it writes into a sink without a limit. -/
theorem run_converse (file : String → Option ByteArray) (prompt : String) (i : Interpreter)
    (input : List UInt8) (output : ByteArray) :
    let session : Session := ⟨i, .ofLines (Text.Lines.ofBytes input), ⟨output, none⟩⟩
    ∃ rest, (Session.converse (Host.inMemory file).console prompt i).run ⟨input, output, []⟩ =
      ((Session.run prompt session).1,
        ⟨rest, (Session.run prompt session).2.sink.written, []⟩) := by
  intro session
  have start : Memory.Represents session.source session.sink ⟨input, output, []⟩ := ⟨rfl, rfl, rfl⟩
  obtain ⟨⟨rest, output', complaints⟩, ended, -, written, silent⟩ :=
    Session.converse_of_standsFor (console_standsFor file) prompt start
  refine ⟨rest, ended.trans ?_⟩
  rw [written, show complaints = [] from silent]

/-- Run in memory, the program gives the exit code of the answer to its command line, and what it
has written and said is what the answer holds. -/
theorem program_inMemory (args : List String) (file : String → Option ByteArray)
    (input : List UInt8) :
    ∃ rest, (program (.inMemory file) args).run ⟨input, .empty, []⟩ =
      ((respond args file input).exitCode,
        ⟨rest, (respond args file input).output, (respond args file input).complaint.toList⟩) := by
  obtain ⟨content, found, same⟩ := run_config args file ⟨input, .empty, []⟩
  rw [program, run_bind_of_run found, same, respond]
  cases task args file with
  | print text =>
    rw [run_bind_of_run (run_write_first text input)]
    exact ⟨input, rfl⟩
  | refuse exitCode complaint => exact ⟨input, rfl⟩
  | session opening prompt i =>
    obtain ⟨rest, ended⟩ := run_converse file prompt i input opening.toUTF8
    rw [run_bind_of_run (run_write_first opening input)]
    dsimp only
    rw [run_bind_of_run ended]
    match Session.run prompt ⟨i, .ofLines (Text.Lines.ofBytes input), ⟨opening.toUTF8, none⟩⟩ with
    | (.ok (), final) => exact ⟨rest, rfl⟩
    | (.error failure, final) => exact ⟨rest, rfl⟩

end

end CommandLine

end Forth
