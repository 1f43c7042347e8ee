import Forth.Interpreter

/-!
# Configurations

A configuration holds the settings of a session and the composite words it starts with.
`validate` refuses what could never work: a depth limit of zero, a word whose name is no
word to the dispatcher, and a word whose body has no token.
-/

namespace Forth

structure Settings where
  /-- How many composite words may be nested. -/
  maxDepth : Nat
  split : SplitMode
  prompt : String
  deriving DecidableEq

def Settings.default : Settings := ⟨Interpreter.defaultMaxDepth, .space, ""⟩

structure Config where
  settings : Settings
  /-- The bodies of the composite words, by name. -/
  words : Std.ExtTreeMap String String
  deriving DecidableEq

namespace Config

def default : Config := ⟨.default, {}⟩

/-- What is wrong with a configuration. -/
inductive Invalid where
  | zeroDepth
  /-- No token of this text is ever looked up as a word. -/
  | uncallable (name : String)
  | emptyBody (name : String)
  deriving DecidableEq

def Invalid.message : Invalid → String
  | zeroDepth => "interpreter.max_depth must be at least 1"
  | uncallable name => s!"word '{name}' can never be invoked: it does not read as a word"
  | emptyBody name => s!"word '{name}' has an empty body"

/-- Would a token of this text be looked up as a word? A token that starts like a number is,
if it is neither in floating-point form nor an integer. -/
def isCallable (name : String) : Bool :=
  match Token.kind name with
  | .word => true
  | .number => !Token.isFloat name && !(Decimal.readInt64 name.toList).isOk
  | .unrecognized => false

def checkWord (name body : String) : Except Invalid Unit :=
  if !isCallable name then .error (.uncallable name)
  else if Text.isBlankText body then .error (.emptyBody name)
  else .ok ()

/-- Accepts the configuration, or says what is wrong with it first: the limit, then the words
in ascending order of name. -/
def validate (c : Config) : Except Invalid Unit := do
  if c.settings.maxDepth = 0 then throw .zeroDepth
  c.words.toList.forM fun (name, body) => checkWord name body

/-- The composite words in ascending order of name. -/
def composites (c : Config) : List Composite :=
  c.words.toList.map fun (name, body) => .define name body

def dictionary (c : Config) : Dictionary := .ofList c.composites

/-- A fresh session with these settings and words. -/
def interpreter (c : Config) : Interpreter :=
  .new c.dictionary c.settings.maxDepth c.settings.split

theorem checkWord_eq_ok_iff {name body : String} :
    checkWord name body = .ok () ↔ isCallable name = true ∧ Text.isBlankText body = false := by
  unfold checkWord
  cases isCallable name <;> cases Text.isBlankText body <;> simp

theorem forM_eq_ok_iff {α : Type} {check : α → Except Invalid Unit} {xs : List α} :
    xs.forM check = .ok () ↔ ∀ x ∈ xs, check x = .ok () := by
  induction xs with
  | nil => simp [pure, Except.pure]
  | cons x xs ih =>
    rw [List.forall_mem_cons, ← ih]
    cases first : check x with
    | ok _ => simp [bind, Except.bind, first]
    | error cause => simp [bind, Except.bind, first]

/-- A configuration is accepted exactly if words may be expanded at all, and each of its words has a
name that is looked up and a body with a token in it. -/
theorem validate_eq_ok_iff (c : Config) :
    c.validate = .ok () ↔ c.settings.maxDepth ≠ 0 ∧
      ∀ name body, c.words[name]? = some body →
        isCallable name = true ∧ Text.isBlankText body = false := by
  have words : (c.words.toList.forM fun (name, body) => checkWord name body) = .ok () ↔
      ∀ name body, c.words[name]? = some body →
        isCallable name = true ∧ Text.isBlankText body = false := by
    simp only [forM_eq_ok_iff, Prod.forall, Std.ExtTreeMap.mem_toList_iff_getElem?_eq_some,
      checkWord_eq_ok_iff]
  rw [← words, validate]
  by_cases zero : c.settings.maxDepth = 0
  · simp [zero, throw, throwThe, MonadExceptOf.throw, bind, Except.bind]
  · simp [zero]

/-- The dictionary finds the words of the configuration and no others. -/
theorem find?_dictionary (c : Config) (name : String) :
    c.dictionary.find? name = c.words[name]?.map (Composite.define name) := by
  have entry_of_mem {w : Composite} (member : w ∈ c.composites.reverse) :
      ∃ body, c.words[w.name]? = some body ∧ w = .define w.name body := by
    obtain ⟨⟨key, body⟩, entry, rfl⟩ := List.mem_map.1 (List.mem_reverse.1 member)
    exact ⟨body, Std.ExtTreeMap.mem_toList_iff_getElem?_eq_some.1 entry, rfl⟩
  rw [dictionary, Dictionary.find?_ofList]
  cases found : c.composites.reverse.find? fun w => w.name == name with
  | some w =>
    obtain ⟨body, entry, defined⟩ := entry_of_mem (List.mem_of_find?_eq_some found)
    obtain rfl : w.name = name := by simpa using List.find?_some found
    rw [entry, Option.map_some, ← defined]
  | none =>
    cases entry : c.words[name]? with
    | none => rfl
    | some body =>
      have member : Composite.define name body ∈ c.composites.reverse :=
        List.mem_reverse.2 (List.mem_map.2
          ⟨(name, body), Std.ExtTreeMap.mem_toList_iff_getElem?_eq_some.2 entry, rfl⟩)
      have unnamed := List.find?_eq_none.1 found _ member
      simp at unnamed

end Config

end Forth
