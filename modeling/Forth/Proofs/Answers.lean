import Mathlib
import Forth.CommandLine
import Forth.Proofs.Transcript
import Forth.Proofs.WrittenSettings

/-!
# The answer to a command line

With options that are understood, the program settles on a configuration, and then does one of three
things: it refuses, lists the words, or runs a session over standard input and passes on how it
ended (`CommandLine.respond_of_options`).

A session writes after what its sink holds already, and its prompt does not show in what it writes
(`Session.run_after`). So the opening and the transcript come apart, and of the configuration only
the interpreter matters.
-/

namespace Forth

namespace Session

/-- What a session writes comes after what was written before, and the prompt has no part in it. -/
theorem run_after (prompt other : String) (i : Interpreter) (source : Source)
    (written : ByteArray) :
    (run prompt ⟨i, source, ⟨written, none⟩⟩).1 = (run other ⟨i, source, .withRoom none⟩).1 ∧
      (run prompt ⟨i, source, ⟨written, none⟩⟩).2.sink.written =
        written ++ (run other ⟨i, source, .withRoom none⟩).2.sink.written := by
  obtain ⟨lines, result, rest, course⟩ := exists_course i source.answers
  have takes (prompt : String) (written : ByteArray) :
      run prompt ⟨i, source, ⟨written, none⟩⟩ =
        (result, ⟨(i.evalLines lines).2,
          ⟨rest, source.prompts ++ Array.replicate (reads lines result) prompt⟩,
          Sink.accept ⟨written, none⟩ (transcript (i.evalLines lines).1)⟩) :=
    run_of_course course Sink.hasRoom_unlimited
  rw [Sink.withRoom, takes prompt written, takes other .empty]
  refine ⟨rfl, ?_⟩
  show written ++ transcript _ = written ++ (.empty ++ transcript _)
  rw [ByteArray.empty_append]

end Session

namespace Config

variable {c c' : Config} {cause : Invalid}

theorem embedded_eq : embedded = .ok .default := by
  rw [embedded, ofText, Toml.parse?, toList_defaultDocument]
  cbv

theorem validated_of_error (h : c.validate = .error cause) :
    c.validated = .error (.invalid cause) := by
  rw [validated, h]

/-- Validation looks at the words, and at the limit only for whether it is zero. -/
theorem validate_congr (words : c.words = c'.words)
    (limit : c.settings.maxDepth = 0 ↔ c'.settings.maxDepth = 0) : c.validate = c'.validate := by
  simp only [validate, words, limit]

end Config

namespace CommandLine

namespace Options

/-- The configuration that the options start from: that of the file, which has to be valid as it
stands, or the default one. -/
def StartsFrom (o : Options) (file : String → Option ByteArray) (c : Config) : Prop :=
  match o.config with
  | some path => Config.Describes (file path) c ∧ c.validate = .ok ()
  | .none => c = .default

/-- The configuration with the settings that the options give. -/
def override (o : Options) (c : Config) : Config :=
  { c with settings :=
    { c.settings with
      maxDepth := o.maxDepth.getD c.settings.maxDepth
      split := o.split.getD c.settings.split } }

/-- What is printed before a session. -/
def opening (o : Options) : String :=
  if .quiet ∈ o.flags then "" else banner

section

variable {o o' : Options} {file file' : String → Option ByteArray} {c c' : Config}

/-! ## The configuration in effect -/

theorem effective_of_startsFrom (h : o.StartsFrom file c) :
    o.effective file = (o.override c).validated := by
  unfold StartsFrom at h
  split at h
  next path given =>
    rw [effective, given]
    dsimp only
    rw [Config.ofFile_eq_ok_iff.2 h]
    rfl
  next absent =>
    rw [effective, absent, h]
    dsimp only
    rw [Config.embedded_eq]
    rfl

theorem exists_startsFrom_of_effective (h : o.effective file = .ok c') :
    ∃ c, o.StartsFrom file c := by
  cases given : o.config with
  | some path =>
    rw [effective, given] at h
    obtain ⟨c, loaded, -⟩ := bind_eq_ok_iff.1 h
    exact ⟨c, by rw [StartsFrom, given]; exact Config.ofFile_eq_ok_iff.1 loaded⟩
  | none => exact ⟨.default, by rw [StartsFrom, given]⟩

/-- There is no configuration in effect if the options start from none, or from one that is invalid
with the settings that they give. -/
theorem exists_effective_eq_error
    (h : ∀ c, o.StartsFrom file c → (o.override c).validate ≠ .ok ()) :
    ∃ failure, o.effective file = .error failure := by
  cases effective : o.effective file with
  | error failure => exact ⟨failure, rfl⟩
  | ok c' =>
    obtain ⟨c, starts⟩ := exists_startsFrom_of_effective effective
    rw [effective_of_startsFrom starts, Config.validated_eq_ok_iff] at effective
    exact absurd effective.1 (h c starts)

theorem effective_of_valid (starts : o.StartsFrom file c)
    (valid : (o.override c).validate = .ok ()) : o.effective file = .ok (o.override c) := by
  rw [effective_of_startsFrom starts]
  exact Config.validated_eq_ok_iff.2 ⟨valid, rfl⟩

/-! ## Other options and other files -/

/-- The options are the same, but for whether a history is kept. -/
structure SameButHistory (o o' : Options) : Prop where
  config : o'.config = o.config
  maxDepth : o'.maxDepth = o.maxDepth
  split : o'.split = o.split
  quiet : .quiet ∈ o'.flags ↔ .quiet ∈ o.flags
  words : .words ∈ o'.flags ↔ .words ∈ o.flags

/-- The second options are the first ones without the one that gives this setting. -/
inductive Drops (o : Options) : Config.Change → Options → Prop where
  | maxDepth {limit : Nat} (given : o.maxDepth = some limit) :
      Drops o (.maxDepth limit) { o with maxDepth := .none }
  | split {mode : SplitMode} (given : o.split = some mode) :
      Drops o (.split mode) { o with split := .none }

theorem effective_of_sameButHistory (same : o.SameButHistory o') :
    o'.effective file = o.effective file := by
  rw [effective, effective, same.config, same.maxDepth, same.split]

theorem effective_of_describes {path : String} (given : o.config = some path)
    (described : Config.Describes (file path) c) :
    o.effective file = c.validated >>= fun c => (o.override c).validated := by
  rw [effective, given]
  dsimp only
  rw [Config.ofFile_of_describes described]
  rfl

theorem effective_of_prompt {path text : String} (given : o.config = some path)
    (described : Config.Describes (file path) c)
    (described' : Config.Describes (file' path) ((Config.Change.prompt text).config c)) :
    o.effective file' = (o.effective file).map (Config.Change.prompt text).config := by
  have validated (c : Config) : ((Config.Change.prompt text).config c).validated =
      c.validated.map (Config.Change.prompt text).config := by
    have same : ((Config.Change.prompt text).config c).validate = c.validate :=
      Config.validate_congr rfl Iff.rfl
    rw [Config.validated, Config.validated, same]
    cases c.validate <;> rfl
  rw [effective_of_describes given described, effective_of_describes given described', validated]
  cases c.validated with
  | error failure => rfl
  | ok c => exact validated (o.override c)

namespace Drops

variable {change : Config.Change}

theorem config_eq (drops : o.Drops change o') : o'.config = o.config := by
  cases drops <;> rfl

theorem flags_eq (drops : o.Drops change o') : o'.flags = o.flags := by
  cases drops <;> rfl

theorem override_config (drops : o.Drops change o') (c : Config) :
    o'.override (change.config c) = o.override c := by
  cases drops with
  | maxDepth given =>
    rw [override, override, given]
    rfl
  | split given =>
    rw [override, override, given]
    rfl

/-- What is wrong with a setting is wrong with it as an option. -/
theorem validate_override (drops : o.Drops change o') (valid : c.validate = .ok ())
    {cause : Config.Invalid} (h : (change.config c).validate = .error cause) :
    (o.override c).validate = .error cause := by
  rw [← drops.override_config c, ← h]
  cases drops with
  | maxDepth => exact Config.validate_congr rfl Iff.rfl
  | @split mode given =>
    have same : ((Config.Change.split mode).config c).validate = c.validate :=
      Config.validate_congr rfl Iff.rfl
    rw [same, valid] at h
    cases h

end Drops

/-- An option does what its setting does in the file. -/
theorem effective_of_drops {path : String} {change : Config.Change} (drops : o.Drops change o')
    (given : o.config = some path) (described : Config.Describes (file path) c)
    (valid : c.validate = .ok ()) (described' : Config.Describes (file' path) (change.config c)) :
    o'.effective file' = o.effective file := by
  have validated : c.validated = .ok c := Config.validated_eq_ok_iff.2 ⟨valid, rfl⟩
  rw [effective_of_describes (drops.config_eq.trans given) described',
    effective_of_describes given described, validated]
  show _ = (o.override c).validated
  cases settled : (change.config c).validate with
  | ok _ =>
    rw [Config.validated_eq_ok_iff.2 ⟨settled, rfl⟩, ← drops.override_config c]
    rfl
  | error cause =>
    rw [Config.validated_of_error settled,
      Config.validated_of_error (drops.validate_override valid settled)]
    rfl

end

end Options

section

variable {args args' : List String} {o o' : Options} {file file' : String → Option ByteArray}
variable {input : List UInt8} {c : Config} {failure : Config.Failure}

/-! ## What is done with it -/

theorem respond_of_error (accepted : Options.ofArgs args = .ok o)
    (failed : o.effective file = .error failure) :
    respond args file input =
      ⟨1, .empty, some (complaintOf (o.config.getD "") failure)⟩ := by
  simp only [respond, task, accepted, failed]

theorem respond_of_words (accepted : Options.ofArgs args = .ok o)
    (settled : o.effective file = .ok c) (listing : .words ∈ o.flags) :
    respond args file input = ⟨0, c.dictionary.listing.toUTF8, none⟩ := by
  simp only [respond, task, accepted, settled, List.contains_iff_mem.2 listing, if_true]

theorem task_of_session (accepted : Options.ofArgs args = .ok o)
    (settled : o.effective file = .ok c) (noListing : .words ∉ o.flags) :
    task args file = .session o.opening c.settings.prompt c.interpreter := by
  have words : o.flags.contains .words = false := by
    rwa [← Bool.not_eq_true, List.contains_iff_mem]
  simp only [task, accepted, settled, words, Options.opening, List.contains_iff_mem]
  rfl

/-- The answer that passes on how a session ended, and what it wrote after the opening. -/
def answerOf (opening : String) (ran : Except Session.Failure Unit × Session) : Response :=
  match ran.1 with
  | .ok () => ⟨0, opening.toUTF8 ++ ran.2.sink.written, none⟩
  | .error failure => ⟨1, opening.toUTF8 ++ ran.2.sink.written, some failure.message⟩

theorem output_answerOf (opening : String) (ran : Except Session.Failure Unit × Session) :
    (answerOf opening ran).output = opening.toUTF8 ++ ran.2.sink.written := by
  unfold answerOf
  split <;> rfl

theorem exitCode_answerOf (opening : String) (ran : Except Session.Failure Unit × Session) :
    (ran.1 = .ok () → (answerOf opening ran).exitCode = 0) ∧
      (ran.1 ≠ .ok () → (answerOf opening ran).exitCode = 1) := by
  unfold answerOf
  constructor
  · intro ended
    rw [ended]
  · intro failed
    split
    next ended => exact absurd ended failed
    next => rfl

theorem respond_of_session (accepted : Options.ofArgs args = .ok o)
    (settled : o.effective file = .ok c) (noListing : .words ∉ o.flags) (prompt : String) :
    respond args file input =
      answerOf o.opening (Session.run prompt
        ⟨c.interpreter, .ofLines (Text.Lines.ofBytes input), .withRoom none⟩) := by
  obtain ⟨ended, written⟩ := Session.run_after c.settings.prompt prompt c.interpreter
    (.ofLines (Text.Lines.ofBytes input)) o.opening.toUTF8
  rw [respond, task_of_session accepted settled noListing]
  dsimp only
  rw [answerOf, ← ended, ← written]
  split
  next s ran => rw [ran]
  next failure s ran => rw [ran]

/-! ## What does not show in the answer -/

/-- Only the interpreter of the configuration in effect and what is to be printed show. -/
theorem respond_congr {g : Config → Config} (accepted : Options.ofArgs args = .ok o)
    (accepted' : Options.ofArgs args' = .ok o') (config : o'.config = o.config)
    (opening : o'.opening = o.opening) (words : .words ∈ o'.flags ↔ .words ∈ o.flags)
    (same : ∀ c, (g c).interpreter = c.interpreter)
    (effective : o'.effective file' = (o.effective file).map g) :
    respond args' file' input = respond args file input := by
  cases settled : o.effective file with
  | error failure =>
    rw [settled] at effective
    rw [respond_of_error accepted settled, respond_of_error accepted' effective, config]
  | ok c =>
    rw [settled] at effective
    by_cases listing : .words ∈ o.flags
    · have dictionary : (g c).dictionary = c.dictionary :=
        congrArg Interpreter.dictionary (same c)
      rw [respond_of_words accepted settled listing,
        respond_of_words accepted' effective (words.2 listing), dictionary]
    · rw [respond_of_session accepted settled listing "",
        respond_of_session accepted' effective (mt words.1 listing) "", opening, same]

theorem respond_of_effective_eq (accepted : Options.ofArgs args = .ok o)
    (accepted' : Options.ofArgs args' = .ok o') (config : o'.config = o.config)
    (opening : o'.opening = o.opening) (words : .words ∈ o'.flags ↔ .words ∈ o.flags)
    (effective : o'.effective file' = o.effective file) :
    respond args' file' input = respond args file input := by
  apply respond_congr (g := id) accepted accepted' config opening words
  · intro c
    rfl
  · rw [effective]
    cases o.effective file <;> rfl

theorem respond_of_refused (accepted : Options.ofArgs args = .ok o)
    (refused : ∀ c, o.StartsFrom file c → (o.override c).validate ≠ .ok ()) :
    (respond args file input).exitCode = 1 ∧ (respond args file input).output = .empty := by
  obtain ⟨failure, failed⟩ := Options.exists_effective_eq_error refused
  rw [respond_of_error accepted failed]
  exact ⟨rfl, rfl⟩

theorem respond_of_sameButHistory (accepted : Options.ofArgs args = .ok o)
    (accepted' : Options.ofArgs args' = .ok o') (same : o.SameButHistory o') :
    respond args' file input = respond args file input := by
  have opening : o'.opening = o.opening := by simp only [Options.opening, same.quiet]
  exact respond_of_effective_eq accepted accepted' same.config opening same.words
    (Options.effective_of_sameButHistory same)

theorem respond_of_prompt {path text : String} (accepted : Options.ofArgs args = .ok o)
    (given : o.config = some path) (described : Config.Describes (file path) c)
    (described' : Config.Describes (file' path) ((Config.Change.prompt text).config c)) :
    respond args file' input = respond args file input := by
  apply respond_congr (g := (Config.Change.prompt text).config) accepted accepted rfl rfl Iff.rfl
  · intro c
    rfl
  · exact Options.effective_of_prompt given described described'

theorem respond_of_drops {path : String} {change : Config.Change}
    (accepted : Options.ofArgs args = .ok o) (accepted' : Options.ofArgs args' = .ok o')
    (drops : o.Drops change o') (given : o.config = some path)
    (described : Config.Describes (file path) c) (valid : c.validate = .ok ())
    (described' : Config.Describes (file' path) (change.config c)) :
    respond args' file' input = respond args file input := by
  have opening : o'.opening = o.opening := by simp only [Options.opening, drops.flags_eq]
  have words : .words ∈ o'.flags ↔ .words ∈ o.flags := by rw [drops.flags_eq]
  exact respond_of_effective_eq accepted accepted' drops.config_eq opening words
    (Options.effective_of_drops drops given described valid described')

/-- The answer to options that are understood is settled by the configuration in effect. The program
refuses if there is no valid one to start from, or if it is invalid with the settings that the
options give. Otherwise it lists the words or, after the opening, writes what a session over the
input writes, and tells how the session ended. Nothing of this depends on the history or the prompt,
and an option does what its setting does that is written into the file. -/
theorem respond_of_options (accepted : Options.ofArgs args = .ok o)
    (file : String → Option ByteArray) (input : List UInt8) :
    ((∀ c, o.StartsFrom file c → (o.override c).validate ≠ .ok ()) →
      (respond args file input).exitCode = 1 ∧ (respond args file input).output = .empty) ∧
    (∀ c, o.StartsFrom file c → (o.override c).validate = .ok () →
      (.words ∈ o.flags →
        (respond args file input).exitCode = 0 ∧
        (respond args file input).output = (o.override c).dictionary.listing.toUTF8) ∧
      (.words ∉ o.flags → ∀ prompt,
        let ran := Session.run prompt
          ⟨(o.override c).interpreter, .ofLines (Text.Lines.ofBytes input), .withRoom none⟩
        (respond args file input).output = o.opening.toUTF8 ++ ran.2.sink.written ∧
        (ran.1 = .ok () → (respond args file input).exitCode = 0) ∧
        (ran.1 ≠ .ok () → (respond args file input).exitCode = 1))) ∧
    (∀ args' o', Options.ofArgs args' = .ok o' → o.SameButHistory o' →
      respond args' file input = respond args file input) ∧
    (∀ path c text file', o.config = some path → Config.Describes (file path) c →
      Config.Describes (file' path) ((Config.Change.prompt text).config c) →
      respond args file' input = respond args file input) ∧
    (∀ path c change args' o', o.config = some path →
      Config.Describes (file path) c → c.validate = .ok () →
      o.Drops change o' → Options.ofArgs args' = .ok o' →
      (∀ file', Config.Describes (file' path) (change.config c) →
        respond args' file' input = respond args file input) ∧
      (∀ t file', change.Writable → Toml.IsDocument (file path) t →
        Toml.IsDocument (file' path) (change.write t) →
        respond args' file' input = respond args file input)) := by
  refine ⟨respond_of_refused accepted, ?_, ?_, ?_, ?_⟩
  · intro c starts valid
    have settled := Options.effective_of_valid starts valid
    constructor
    · intro listing
      rw [respond_of_words accepted settled listing]
      exact ⟨rfl, rfl⟩
    · intro noListing prompt
      rw [respond_of_session accepted settled noListing prompt]
      exact ⟨output_answerOf _ _, exitCode_answerOf _ _⟩
  · intro args' o' accepted' same
    exact respond_of_sameButHistory accepted accepted' same
  · intro path c text file' given described described'
    exact respond_of_prompt accepted given described described'
  · intro path c change args' o' given described valid drops accepted'
    constructor
    · intro file' described'
      exact respond_of_drops accepted accepted' drops given described valid described'
    · intro t file' writable document written
      exact respond_of_drops accepted accepted' drops given described valid
        (described.write writable document written)

end

/-- A document with a word, and the same with a limit written into it. -/
def seven : String := "[words]\nseven = \"3 4 +\"\n"

def limitedSeven : String := "[words]\nseven = \"3 4 +\"\n[interpreter]\nmax_depth = 1\n"

def sevenThenBye : List UInt8 := "seven .\nbye\n".toUTF8.data.toList

/-- The limit is the same as an option and in the file. -/
theorem respond_to_seven :
    Options.ofArgs ["-qc", "f", "--max-depth", "1"] =
      .ok ⟨some "f", some 1, none, [.quiet]⟩ ∧
    (respond ["-qc", "f", "--max-depth", "1"] (fun _ => some seven.toUTF8) sevenThenBye).exitCode =
      0 ∧
    (respond ["-qc", "f", "--max-depth", "1"] (fun _ => some seven.toUTF8) sevenThenBye).output =
      "  7 OK!\n  Exiting...\n".toUTF8 ∧
    respond ["-qc", "f"] (fun _ => some limitedSeven.toUTF8) sevenThenBye =
      respond ["-qc", "f", "--max-depth", "1"] (fun _ => some seven.toUTF8) sevenThenBye := by
  let c : Config := { Config.default with words := .ofList [("seven", "3 4 +")] }
  let o : Options := ⟨some "f", some 1, none, [.quiet]⟩
  have accepted : Options.ofArgs ["-qc", "f", "--max-depth", "1"] = .ok o := by cbv
  have document : Toml.IsDocument (some seven.toUTF8)
      [("words", .table [("seven", .string "3 4 +")])] := Toml.isDocument_of_parse? (by cbv)
  have written : Toml.IsDocument (some limitedSeven.toUTF8)
      ((Config.Change.maxDepth 1).write [("words", .table [("seven", .string "3 4 +")])]) :=
    Toml.isDocument_of_parse? (by cbv)
  have described : Config.Describes (some seven.toUTF8) c := ⟨_, document, by cbv⟩
  have valid : c.validate = .ok () := by cbv
  have lines : Text.Lines.ofBytes sevenThenBye = ["seven .", "bye"] := by cbv
  have evaluated : ((o.override c).interpreter.evalLines ["seven .", "bye"]).1 =
      [.completed (some (.integer 7)), .shutdown] := by cbv
  have reported : transcript [.completed (some (.integer 7)), .shutdown] =
      "  7 OK!\n  Exiting...\n".toUTF8 := by cbv
  have goesOn : (o.override c).interpreter.GoesOn ["seven ."] := by
    have first : ((o.override c).interpreter.evalLines ["seven ."]).1 =
        [.completed (some (.integer 7))] := by cbv
    rw [Interpreter.GoesOn, first]
    decide
  have course : Session.Course (o.override c).interpreter [.line "seven .", .line "bye"]
      ["seven .", "bye"] (.ok ()) [] := .shutdown goesOn (by cbv)
  have ran : Session.run "" ⟨(o.override c).interpreter, .ofLines ["seven .", "bye"],
      .withRoom none⟩ = _ := Session.run_of_course course Session.Sink.hasRoom_unlimited
  rw [evaluated, reported] at ran
  obtain ⟨-, answered, -, -, alike⟩ :=
    respond_of_options accepted (fun _ => some seven.toUTF8) sevenThenBye
  obtain ⟨output, exitCode, -⟩ := (answered c ⟨described, valid⟩ (by cbv)).2 (by decide) ""
  rw [lines, ran] at output exitCode
  have same := (alike "f" c (.maxDepth 1) ["-qc", "f"] _ rfl described valid (.maxDepth rfl)
    (by cbv)).2 _ (fun _ => some limitedSeven.toUTF8) (by simp [Config.Change.Writable]) document
    written
  exact ⟨accepted, exitCode rfl, output, same⟩

end CommandLine

end Forth
