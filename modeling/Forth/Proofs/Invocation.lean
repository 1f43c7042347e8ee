import Mathlib
import Forth.Config

/-!
# Which words can be invoked

The words of a valid configuration have names that are looked up, so a token that is such a name
is dispatched to its word and expands it (`meaning_of_entry`). Whether there ever is such a token
is up to the split mode: a line is cut at the characters that the mode separates at, and no token
holds one of them. So a word can be invoked from a line exactly if its name is free of them, and
then the line that is just the name does what executing the name does.

Validation does not look at separators. It accepts names that no line can hold as one token.
-/

namespace Forth

/-- How a line ends that consists of one token, if executing the token comes to this. -/
def Interpreter.reportOf (result : Except Fault Unit) (i : Interpreter) : Outcome :=
  if i.state.isShutdown then .shutdown
  else match result with
    | .ok () => .completed i.state.value
    | .error fault => .failed fault

/-- A line that is a single token does what the token does, apart from the value that it reports. -/
theorem Interpreter.evalLine_of_split_eq_singleton {i : Interpreter} {t : Token}
    (nonempty : t ≠ "") (single : i.split.split t = [t]) :
    i.evalLine t =
      (reportOf (i.execute t).1 (i.execute t).2, (i.execute t).2.clearValue) := by
  have full : t.isEmpty = false := by simpa using nonempty
  rw [evalLine, full, single]
  simp only [Bool.false_eq_true, if_false, evalTokens, reportOf]
  cases (i.execute t).2.state.isShutdown with
  | true => rfl
  | false => cases (i.execute t).1 <;> rfl

namespace Config

variable {c : Config} {name body : String}

theorem ne_empty_of_isCallable (h : isCallable name = true) : name ≠ "" := by
  rintro rfl
  cases h

/-- A name that is looked up stands for the composite word of that name, if there is one. -/
theorem meaning_of_isCallable {d : Dictionary} {w : Composite} (callable : isCallable name = true)
    (found : d.find? name = some w) : d.meaning name = .composite w := by
  have stands : d.wordMeaning name = .composite w := by
    rw [Dictionary.wordMeaning, Dictionary.resolve?, found]
  have known : d.contains name = true := by
    rw [Dictionary.contains_iff, Dictionary.resolve?, found]
    rfl
  rw [isCallable] at callable
  cases kind : Token.kind name with
  | unrecognized => simp [kind] at callable
  | word => simp only [Dictionary.meaning, kind, stands]
  | number =>
    simp only [kind, Bool.and_eq_true, Bool.not_eq_true'] at callable
    obtain ⟨integral, unread⟩ := callable
    cases read : Decimal.readInt64 name.toList with
    | ok n => simp [read, Except.isOk, Except.toBool] at unread
    | error cause =>
      simp only [Dictionary.meaning, kind, integral, read, known, stands, if_true,
        Bool.false_eq_true, if_false]

/-- The name of a word of a valid configuration stands for that word. -/
theorem meaning_of_entry (accepted : c.validate = .ok ()) (entry : c.words[name]? = some body) :
    c.dictionary.meaning name = .composite (.define name body) := by
  refine meaning_of_isCallable ((validate_eq_ok_iff c).1 accepted |>.2 name body entry).1 ?_
  rw [find?_dictionary, entry, Option.map_some]

/-- A word of a valid configuration can be invoked from a line exactly if its name holds no
character that lines are cut at. Then the line that is just the name is cut into the name alone,
which expands the word; the stack and the status are left as executing the name leaves them, and its
fault, the end of the session or the value that it set is reported. -/
theorem invoked_iff_not_separated (c : Config) (accepted : c.validate = .ok ()) (name body : String)
    (entry : c.words[name]? = some body) (s : State) :
    let mode := c.settings.split
    let i : Interpreter := { c.interpreter with state := s }
    ((∃ line, name ∈ mode.split line) ↔ ∀ ch ∈ name.toList, mode.separates ch = false) ∧
    ((∀ ch ∈ name.toList, mode.separates ch = false) →
      mode.split name = [name] ∧
      Execution.dispatch c.dictionary c.settings.maxDepth name .empty s =
        .ok (Stack.empty.push (.start (.define name body))) s ∧
      (i.evalLine name).1 = Interpreter.reportOf (i.execute name).1 (i.execute name).2 ∧
      (i.evalLine name).2.state.ints = (i.execute name).2.state.ints ∧
      (i.evalLine name).2.state.status = (i.execute name).2.state.status) := by
  intro mode i
  obtain ⟨deep, words⟩ := (validate_eq_ok_iff c).1 accepted
  have nonempty := ne_empty_of_isCallable (words name body entry).1
  refine ⟨⟨?_, ?_⟩, ?_⟩
  · rintro ⟨line, member⟩
    exact SplitMode.not_separates_of_mem_split member
  · intro free
    refine ⟨name, ?_⟩
    rw [SplitMode.split_of_not_separates nonempty free]
    exact List.mem_singleton_self name
  · intro free
    have single : i.split.split name = [name] := SplitMode.split_of_not_separates nonempty free
    refine ⟨single, ?_, ?_⟩
    · rw [Execution.dispatch_of_composite (meaning_of_entry accepted entry)]
      exact if_neg (Nat.not_le_of_lt (Nat.pos_of_ne_zero deep))
    · rw [Interpreter.evalLine_of_split_eq_singleton nonempty single]
      exact ⟨rfl, rfl, rfl⟩

/-- The settings that hold by default, and one composite word. -/
def withWord (name body : String) : Config :=
  { default with words := ({} : Std.ExtTreeMap String String).insert name body }

/-- A name that starts like a number is invoked too, if it cannot be read as one. -/
theorem invoked_minus_word :
    (withWord "-rot" "1 2 +").validate = .ok () ∧
    (withWord "-rot" "1 2 +").words["-rot"]? = some "1 2 +" ∧
    (∀ ch ∈ "-rot".toList, SplitMode.space.separates ch = false) ∧
    ((withWord "-rot" "1 2 +").interpreter.evalLine "-rot").1 = .completed none ∧
    ((withWord "-rot" "1 2 +").interpreter.evalLine "-rot").2.state.ints.toList = [3] := by
  have accepted : (withWord "-rot" "1 2 +").validate = .ok () := by rfl
  have entry : (withWord "-rot" "1 2 +").words["-rot"]? = some "1 2 +" := by decide
  have free : ∀ ch ∈ "-rot".toList, SplitMode.space.separates ch = false := by
    simp [SplitMode.separates]
  obtain ⟨-, invoked⟩ := invoked_iff_not_separated _ accepted _ _ entry .initial
  obtain ⟨-, -, reported, ints, -⟩ := invoked free
  refine ⟨accepted, entry, free, reported.trans ?_, (congrArg Stack.toList ints).trans ?_⟩
  · cbv
  · cbv

/-- Not every name that is accepted can be invoked: executing `a b` expands the word, but a line
that is just this name is cut in two. -/
theorem not_invoked_spaced_word :
    (withWord "a b" "1").validate = .ok () ∧ (withWord "a b" "1").words["a b"]? = some "1" ∧
    ((withWord "a b" "1").interpreter.execute "a b").1 = .ok () ∧
    ((withWord "a b" "1").interpreter.execute "a b").2.state.ints.toList = [1] ∧
    ((withWord "a b" "1").interpreter.evalLine "a b").1 = .failed (.unknownWord "a") ∧
    ((withWord "a b" "1").interpreter.evalLine "a b").2.state.ints.toList = [] := by
  refine ⟨by rfl, by decide, ?_, ?_, ?_, ?_⟩
  · cbv
  · cbv
  · cbv
  · cbv

end Config

end Forth
