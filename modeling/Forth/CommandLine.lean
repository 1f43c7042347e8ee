import Forth.CommandLine.Options
import Forth.Config.Load
import Forth.Dictionary.Listing
import Forth.Session
import Forth.Text.Lines

/-!
# The command line

The command line tells what to do: print a text and end, or run a session over the lines of
standard input. `task` decides this from the arguments and the files alone, and `respond` is
the whole answer, given all of the input.
-/

namespace Forth.CommandLine

def version : String := "0.1.0"

def banner : String :=
  s!"tinyforth version {version}\nType \"bye\" to exit\n\n"

/-- The options with what they mean, as the help text shows them. -/
def optionHelp : List (String × String) :=
  [("-c, --config <PATH>", "TOML configuration file (interpreter settings and composite words)"),
    ("    --max-depth <N>", "Deepest allowed nesting of composite word expansion"),
    ("    --split <MODE>", "How lines are split into tokens: \"space\" or \"whitespace\""),
    ("-q, --quiet", "Don't print the startup banner"),
    ("    --no-history", "Don't load or save line history"),
    ("    --words", "Print the dictionary and exit"),
    ("-h, --help", "Print help"),
    ("-V, --version", "Print version")]

def help : String :=
  "Interactive interpreter for a small Forth dialect\n\nUsage: tinyforth [OPTIONS]\n\nOptions:\n" ++
    String.join (optionHelp.map fun (option, meaning) =>
      "  " ++ option ++ String.ofList (List.replicate (19 - option.length) ' ') ++
        "  " ++ meaning ++ "\n")

/-- The answer to a command line. -/
structure Response where
  exitCode : Nat
  output : ByteArray
  /-- What is said on standard error. -/
  complaint : Option String

/-- What a command line leads to. -/
inductive Task where
  /-- Print a text and end. -/
  | print (text : String)
  /-- End with this exit code, for this reason. -/
  | refuse (exitCode : Nat) (complaint : String)
  /-- Print a text and run a session. -/
  | session (opening : String) (prompt : String) (interpreter : Interpreter)

/-- The configuration in effect: that of the file, or the embedded one, with the settings that
the command line gives in place of its own. It is valid before and after. -/
def Options.effective (o : Options) (file : String → Option ByteArray) :
    Except Config.Failure Config := do
  let c ← match o.config with
    | some path => Config.ofFile (file path)
    | .none => Config.embedded
  let settings :=
    { c.settings with
      maxDepth := o.maxDepth.getD c.settings.maxDepth
      split := o.split.getD c.settings.split }
  Config.validated { c with settings }

/-- How a configuration that could not be loaded is reported. -/
def complaintOf (path : String) : Config.Failure → String
  | .io cause => s!"Error: Failed to read config {path}: {cause}"
  | .malformed => "Error: Failed to parse config: the document is malformed"
  | .schema fault => s!"Error: Failed to parse config: {fault.message}"
  | .invalid cause => s!"Error: {cause.report}"

def task (args : List String) (file : String → Option ByteArray) : Task :=
  match Options.ofArgs args with
  | .error .help => .print help
  | .error .version => .print s!"tinyforth {version}\n"
  | .error .usage => .refuse 2 "error: the command line cannot be understood; try '--help'"
  | .ok o =>
    match o.effective file with
    | .error failure => .refuse 1 (complaintOf (o.config.getD "") failure)
    | .ok c =>
      if o.flags.contains .words then .print c.dictionary.listing
      else .session (if o.flags.contains .quiet then "" else banner) c.settings.prompt c.interpreter

/-- The answer to a command line, given what standard input holds. -/
def respond (args : List String) (file : String → Option ByteArray) (input : List UInt8) :
    Response :=
  match task args file with
  | .print text => ⟨0, text.toUTF8, none⟩
  | .refuse exitCode complaint => ⟨exitCode, .empty, some complaint⟩
  | .session opening prompt interpreter =>
    let lines := Session.Source.ofLines (Text.Lines.ofBytes input)
    match Session.run prompt ⟨interpreter, lines, ⟨opening.toUTF8, none⟩⟩ with
    | (.ok (), s) => ⟨0, s.sink.written, none⟩
    | (.error failure, s) => ⟨1, s.sink.written, some failure.message⟩

end Forth.CommandLine
