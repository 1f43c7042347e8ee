import Forth.Config.Schema
import Forth.Toml.Document

/-!
# Loading configurations

A configuration is loaded from the text of a document or from the bytes of a file, and is
validated before it is used. A document that is refused is looked at again: if a table in it
only seems to stand for a date or a time, it counts as malformed.
-/

namespace Forth.Config

/-- Why a configuration could not be loaded. -/
inductive Failure where
  /-- The file could not be read. -/
  | io (cause : String)
  /-- The text is no document, or no sound one. -/
  | malformed
  /-- The document describes no configuration. -/
  | schema (fault : Schema.Fault)
  | invalid (cause : Invalid)
  deriving DecidableEq

/-- How a configuration that was refused is reported. -/
def Invalid.report (cause : Invalid) : String :=
  "Invalid config: " ++ cause.message

/-- Validates a configuration. -/
def validated (c : Config) : Except Failure Config :=
  match c.validate with
  | .ok () => .ok c
  | .error cause => .error (.invalid cause)

def ofText (text : String) : Except Failure Config :=
  match Toml.parse? text with
  | none => .error .malformed
  | some table =>
    match ofTable table with
    | .error fault => if Toml.soundTable table then .error (.schema fault) else .error .malformed
    | .ok c => c.validated

/-- Loads the bytes of a file, or says that there is none. -/
def ofFile (content : Option ByteArray) : Except Failure Config :=
  match content with
  | none => .error (.io "No such file or directory (os error 2)")
  | some bytes =>
    match String.fromUTF8? bytes with
    | none => .error (.io "stream did not contain valid UTF-8")
    | some text => ofText text

/-- The lines of the document that holds when no other is given. -/
def defaultLines : List String :=
  ["# Default tinyforth configuration",
    "#",
    "# A file passed with --config replaces these values key by key.",
    "",
    "[interpreter]",
    "# Deepest allowed nesting of composite word expansion",
    "max_depth = 128",
    "# \"space\": split lines on single ASCII spaces (runs of spaces give empty tokens)",
    "# \"whitespace\": split on runs of any whitespace",
    "split = \"space\"",
    "# Line prompt; empty prints none",
    "prompt = \"\"",
    "",
    "# Composite words: name = \"body tokens\". These shadow native words.",
    "[words]"]

def defaultDocument : String := String.join (defaultLines.map (· ++ "\n"))

def embedded : Except Failure Config := ofText defaultDocument

/-- The document is computed line by line: the characters of one long text take far longer. -/
theorem toList_defaultDocument :
    defaultDocument.toList = defaultLines.flatMap fun line => line.toList ++ ['\n'] := by
  rw [defaultDocument, String.toList_join, List.flatMap_map]
  simp only [String.toList_append]
  rfl

end Forth.Config
