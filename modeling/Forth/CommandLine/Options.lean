import Forth.Number.Decimal
import Forth.Token

/-!
# The options of the command line

Options take a value, flags do not. An option has its value behind an equals sign, right
behind its letter, or in the next argument, unless that starts with a dash and goes on after
it. Letters of flags may share a dash with each other and with an option at the end.

Arguments are taken from left to right, and the first one that asks for help or for the
version, or that is wrong, decides. Nothing may be given twice, and nothing may stand by
itself.
-/

namespace Forth.CommandLine

/-- The options that take a value. -/
inductive Setting where
  | config
  | maxDepth
  | split
  deriving DecidableEq

inductive Flag where
  | quiet
  | noHistory
  | words
  deriving DecidableEq

/-- What the name of an option stands for. -/
inductive Switch where
  | setting (s : Setting)
  | flag (f : Flag)
  | help
  | version
  deriving DecidableEq

namespace Switch

def ofLetter? : Char → Option Switch
  | 'c' => some (setting .config)
  | 'q' => some (flag .quiet)
  | 'h' => some help
  | 'V' => some version
  | _ => none

def ofName? : String → Option Switch
  | "config" => some (setting .config)
  | "max-depth" => some (setting .maxDepth)
  | "split" => some (setting .split)
  | "quiet" => some (flag .quiet)
  | "no-history" => some (flag .noHistory)
  | "words" => some (flag .words)
  | "help" => some help
  | "version" => some version
  | _ => none

end Switch

/-- What the command line asks for. -/
structure Options where
  config : Option String
  maxDepth : Option Nat
  split : Option SplitMode
  flags : List Flag
  deriving DecidableEq

/-- Why there are no options to work with. -/
inductive Stop where
  | help
  | version
  /-- The command line is wrong. -/
  | usage
  deriving DecidableEq

namespace Options

def none : Options := ⟨Option.none, Option.none, Option.none, []⟩

/-- Gives an option its value. -/
def give (o : Options) (s : Setting) (value : String) : Except Stop Options :=
  match s with
  | .config =>
    if o.config.isSome || value.isEmpty then .error .usage else .ok { o with config := some value }
  | .maxDepth =>
    match o.maxDepth, Decimal.readWord64 value.toList with
    | .none, .ok n => .ok { o with maxDepth := some n }
    | _, _ => .error .usage
  | .split =>
    match o.split, SplitMode.ofName? value with
    | .none, some mode => .ok { o with split := some mode }
    | _, _ => .error .usage

def raise (o : Options) (f : Flag) : Except Stop Options :=
  if o.flags.contains f then .error .usage else .ok { o with flags := f :: o.flags }

end Options

/-- The command line read so far. -/
structure Reading where
  options : Options
  /-- The option whose value is to be the next argument. -/
  awaiting : Option Setting
  /-- Whether the end of the options was marked. -/
  ended : Bool
  deriving DecidableEq

namespace Reading

def of (o : Options) : Reading := ⟨o, none, false⟩

/-- The text of a value behind its letter, where an equals sign may stand between them. -/
def attached : List Char → String
  | '=' :: cs => String.ofList cs
  | cs => String.ofList cs

/-- Reads the letters behind one dash. -/
def letters (o : Options) : List Char → Except Stop Reading
  | [] => .ok (of o)
  | c :: cs =>
    match Switch.ofLetter? c with
    | none => .error .usage
    | some .help => .error .help
    | some .version => .error .version
    | some (.flag f) =>
      match o.raise f with
      | .ok o => letters o cs
      | .error stop => .error stop
    | some (.setting s) =>
      if cs.isEmpty then .ok { of o with awaiting := some s } else (o.give s (attached cs)).map of

/-- Reads what stands behind two dashes: a name, and a value if there is an equals sign. -/
def long (o : Options) (cs : List Char) : Except Stop Reading :=
  let name := String.ofList (cs.takeWhile (· != '='))
  match Switch.ofName? name, cs.dropWhile (· != '=') with
  | some (.setting s), _ :: value => (o.give s (String.ofList value)).map of
  | some (.setting s), [] => .ok { of o with awaiting := some s }
  | some (.flag f), [] => (o.raise f).map of
  | some .help, [] => .error .help
  | some .version, [] => .error .version
  | _, _ => .error .usage

/-- Reads one argument. An option that awaits its value gets none from an argument that is an
option itself. -/
def step (r : Reading) (arg : String) : Except Stop Reading :=
  if r.ended then .error .usage
  else
    match arg.toList, r.awaiting with
    | ['-', '-'], _ => .ok { r with ended := true }
    | '-' :: '-' :: cs, none => long r.options cs
    | '-' :: c :: cs, none => letters r.options (c :: cs)
    | '-' :: _ :: _, some _ => .error .usage
    | _, some s => (r.options.give s arg).map of
    | _, none => .error .usage

end Reading

/-- The options that the arguments give. -/
def Options.ofArgs (args : List String) : Except Stop Options :=
  match args.foldlM Reading.step (.of .none) with
  | .error stop => .error stop
  | .ok r => if r.awaiting.isSome then .error .usage else .ok r.options

end Forth.CommandLine
