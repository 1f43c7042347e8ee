import Mathlib
import Forth.Proofs.LineReader
import Forth.Proofs.Literals
import Forth.Proofs.Shutdown
import Forth.Proofs.Splitting

/-!
# Lines that are not well formed

Bytes that are no UTF-8 are not refused when they are read: a replacement character stands for them,
and the line is evaluated like any other. It is refused then. No native word has a replacement in
its name and no number does, so that a token with one stands for a fault if no composite word has
one either (`Dictionary.Clean.exists_fault`), whatever it starts and ends with.

The first such token of a line is the last one that is executed, at the latest
(`Interpreter.evalTokens_of_garbled`). What the line does is what the tokens before it do, and it is
never completed (`Interpreter.evalLine_of_malformed`).
-/

namespace Forth

open Text

/-- A replacement stands in the text. -/
def Garbled (s : String) : Prop := Utf8.replacement ∈ s.toList

instance (s : String) : Decidable (Garbled s) := inferInstanceAs (Decidable (_ ∈ _))

/-! ## Reading -/

namespace Text.Lines

variable {bytes rest line : List UInt8} {text : String}

/-- The bytes that were read end with a newline, or they end with the input. -/
theorem cases_of_readLine (read : readLine bytes = some (text, rest)) :
    (∃ line, (readUntilNewline bytes).1 = line ++ [newline] ∧ text = ended line) ∨
      text = Utf8.decode (readUntilNewline bytes).1 := by
  simp only [readLine] at read
  split at read
  · cases read
  split at read
  next last =>
    obtain ⟨line, split⟩ := List.getLast?_eq_some_iff.1 last
    rw [split, List.dropLast_concat] at read
    exact .inl ⟨line, split, (Prod.mk.inj (Option.some.inj read)).1.symm⟩
  next => exact .inr (Prod.mk.inj (Option.some.inj read)).1.symm

/-- A carriage return more makes nothing malformed. -/
theorem exists_bytes_of_dropReturn (h : Text.bytes text = dropReturn line) :
    ∃ s, Text.bytes s = line := by
  rw [dropReturn] at h
  split at h
  next last =>
    obtain ⟨kept, rfl⟩ := List.getLast?_eq_some_iff.1 last
    rw [List.dropLast_concat] at h
    exact ⟨text ++ "\r", by rw [bytes_append, h]; rfl⟩
  next => exact ⟨text, h⟩

/-- Whatever ends the line, the text of malformed bytes is garbled. -/
theorem garbled_of_readLine (read : readLine bytes = some (text, rest))
    (malformed : ¬ (readUntilNewline bytes).1.toByteArray.IsValidUTF8) : Garbled text := by
  obtain ⟨line, split, rfl⟩ | rfl := cases_of_readLine read
  · by_contra clean
    obtain ⟨s, whole⟩ := exists_bytes_of_dropReturn (Utf8.bytes_decode clean)
    have written : Text.bytes (s ++ "\n") = line ++ [newline] := by
      rw [bytes_append, whole]
      rfl
    rw [split, ← written] at malformed
    exact malformed (isValidUTF8_bytes _)
  · exact Utf8.replacement_mem_decode malformed

end Text.Lines

/-! ## Tokens -/

namespace SplitMode

variable {mode : SplitMode} {line : String} {c : Char}

/-- Every character that the line is not cut at is in a token. -/
theorem exists_mem_split (member : c ∈ line.toList) (kept : mode.separates c = false) :
    ∃ t ∈ mode.split line, c ∈ t.toList := by
  suffices c ∈ (mode.split line).flatMap String.toList from List.mem_flatMap.1 this
  cases mode with
  | space =>
    rw [List.flatMap_def, map_toList_split_space, List.splitOn_eq_splitOnP, Text.flatten_splitOnP]
    exact List.mem_filter.2 ⟨member, by simpa [separates] using kept⟩
  | whitespace =>
    rw [flatMap_toList_split_whitespace]
    exact List.mem_filter.2 ⟨member, by simpa [Text.isSolid, separates] using kept⟩

/-- A garbled line has a first garbled token. -/
theorem exists_first_garbled (garbled : Garbled line) (mode : SplitMode) :
    ∃ before bad after, mode.split line = before ++ bad :: after ∧
      (∀ t ∈ before, ¬ Garbled t) ∧ Garbled bad := by
  have kept : mode.separates Utf8.replacement = false := by cases mode <;> decide
  obtain ⟨t, member, own⟩ := exists_mem_split garbled kept
  have found : ((mode.split line).find? fun t => Garbled t).isSome = true :=
    List.find?_isSome.2 ⟨t, member, decide_eq_true own⟩
  obtain ⟨bad, first⟩ := Option.isSome_iff_exists.1 found
  obtain ⟨own, before, after, split, others⟩ := List.find?_eq_some_iff_append.1 first
  exact ⟨before, bad, after, split, by simpa using others, by simpa using own⟩

end SplitMode

theorem Decimal.Literal.digit_or_minus {cs : List Char} {n : Int} (h : Literal cs n) :
    ∀ c ∈ cs, c.isDigit = true ∨ c = '-' := by
  cases h with
  | digits _ digits => exact fun c member => .inl (digits c member)
  | minus _ digits =>
    rw [List.forall_mem_cons]
    exact ⟨.inr rfl, fun c member => .inl (digits c member)⟩

namespace Dictionary

variable {d : Dictionary} {t : Token}

/-- No composite word has a garbled name. -/
def Clean (d : Dictionary) : Prop := ∀ w ∈ d.composites, ¬ Garbled w.name

/-- Nothing is bound to a garbled name. -/
theorem Clean.resolve?_eq_none (clean : d.Clean) (garbled : Garbled t) : d.resolve? t = none := by
  cases found : d.find? t with
  | some w =>
    have own := clean w (mem_composites found)
    rw [name_of_find? found] at own
    exact absurd garbled own
  | none =>
    cases native : Native.ofName? t with
    | none => rw [resolve?, found, native]; rfl
    | some n =>
      have plain : ∀ n : Native, ¬ Garbled n.name := by
        intro n
        cases n <;> decide
      have own := plain n
      rw [Native.name_of_ofName? native] at own
      exact absurd garbled own

theorem startsNumber_of_kind (kind : t.kind = .number) : t.StartsNumber := by
  unfold Token.kind at kind
  split at kind
  · cases kind
  next c first =>
    split at kind
    next starts => exact ⟨c, first, starts⟩
    next => split at kind <;> cases kind

/-- A garbled token stands for a fault: it starts nothing, it is a word that is bound to nothing, it
is kept for floating point, or it can be read neither as a number nor as a word. -/
theorem Clean.exists_fault (clean : d.Clean) (garbled : Garbled t) :
    ∃ fault, d.meaning t = .fault fault := by
  have unbound := clean.resolve?_eq_none garbled
  cases kind : t.kind with
  | unrecognized => exact ⟨.uncaughtToken t, by simp only [meaning, kind]⟩
  | word => exact ⟨.unknownWord t, by simp only [meaning, kind, wordMeaning, unbound]⟩
  | number =>
    have starts : t.StartsNumber := startsNumber_of_kind kind
    by_cases float : t.toList.getLast? = some 'e'
    · exact ⟨_, meaning_of_float starts float⟩
    · have other : ∀ n : Int64, ¬ Decimal.Literal t.toList n.toInt := by
        intro n literal
        rcases literal.digit_or_minus _ garbled with digit | minus
        · cases digit
        · cases minus
      have stands := meaning_of_unread (d := d) starts float
        (Decimal.readInt64_eq_error starts other)
      rw [unbound] at stands
      exact ⟨_, stands⟩

end Dictionary

/-! ## Lines -/

namespace Interpreter

variable {i j : Interpreter} {t bad : Token} {ts us before after : List Token} {fault : Fault}

theorem execute_of_garbled (clean : i.dictionary.Clean) (garbled : Garbled t) :
    ∃ fault, i.execute t = (.error fault, i) := by
  obtain ⟨fault, stands⟩ := clean.exists_fault garbled
  exact ⟨fault, execute_of_fault stands⟩

/-- Where tokens are completed, the next ones go on from there. -/
theorem evalTokens_append_of_completed {v : Option Value}
    (done : i.evalTokens ts = (.completed v, j)) :
    i.evalTokens (ts ++ us) = j.evalTokens us := by
  induction ts generalizing i with
  | nil =>
    obtain ⟨-, rfl⟩ := Prod.mk.inj done
    rfl
  | cons t ts ih =>
    rw [evalTokens] at done
    rw [List.cons_append, evalTokens]
    cases result : i.execute t with
    | mk answer next =>
      simp only [result] at done ⊢
      cases shut : next.state.isShutdown with
      | true => simp [shut] at done
      | false =>
        simp only [shut, Bool.false_eq_true, if_false] at done ⊢
        cases answer with
        | error fault => simp at done
        | ok _ => exact ih done

/-- Where they are not, no other token is executed. -/
theorem evalTokens_append_of_ended (ended : ∀ v, (i.evalTokens ts).1 ≠ .completed v) :
    i.evalTokens (ts ++ us) = i.evalTokens ts := by
  induction ts generalizing i with
  | nil => exact absurd rfl (ended i.state.value)
  | cons t ts ih =>
    rw [evalTokens] at ended
    rw [List.cons_append, evalTokens, evalTokens]
    cases result : i.execute t with
    | mk answer next =>
      simp only [result] at ended ⊢
      cases shut : next.state.isShutdown with
      | true => rfl
      | false =>
        simp only [shut, Bool.false_eq_true, if_false] at ended ⊢
        cases answer with
        | error fault => rfl
        | ok _ => exact ih ended

theorem evalTokens_snd (running : i.state.status = .running) (ts : List Token) :
    (i.evalTokens ts).2 = { i with
      state := Action.after
        (Execution.inOrder (Execution.expand i.dictionary i.maxDepth 0) ts) i.state } := by
  rw [evalTokens_eq_conclude i ts (State.isShutdown_eq_false_iff.2 running), conclude_snd]

theorem dictionary_evalTokens (running : i.state.status = .running) (ts : List Token) :
    (i.evalTokens ts).2.dictionary = i.dictionary := by
  rw [evalTokens_snd running]

/-- Tokens end the session exactly if a token that ends it is dispatched. -/
theorem status_evalTokens (running : i.state.status = .running) (ts : List Token) :
    (i.evalTokens ts).2.state.status =
      if ∃ u ∈ i.dispatched ts, i.dictionary.EndsSession u then .shutdown else .running := by
  have account := account_inOrder i ts (State.isShutdown_eq_false_iff.2 running)
  rw [evalTokens_snd running, ← running]
  exact account.status_after

theorem evalTokens_eq_shutdown_iff (running : i.state.status = .running) (ts : List Token) :
    (i.evalTokens ts).1 = .shutdown ↔ (i.evalTokens ts).2.state.status = .shutdown := by
  rw [evalTokens_snd running, evalTokens_eq_conclude i ts (State.isShutdown_eq_false_iff.2 running)]
  exact conclude_eq_shutdown_iff

/-- Otherwise the session goes on. -/
theorem running_evalTokens (running : i.state.status = .running)
    (other : (i.evalTokens ts).1 ≠ .shutdown) : (i.evalTokens ts).2.state.status = .running := by
  cases status : (i.evalTokens ts).2.state.status with
  | running => rfl
  | shutdown => exact absurd ((evalTokens_eq_shutdown_iff running ts).2 status) other

/-- It is the native word `bye` that was dispatched, and no composite word hides it. -/
theorem bye_of_evalTokens (running : i.state.status = .running)
    (ended : (i.evalTokens ts).1 = .shutdown) :
    Native.bye.name ∈ i.dispatched ts ∧ i.dictionary.find? Native.bye.name = none := by
  have status := (evalTokens_eq_shutdown_iff running ts).1 ended
  rw [status_evalTokens running] at status
  split at status
  next dispatched =>
    obtain ⟨u, member, ends⟩ := dispatched
    obtain ⟨own, -⟩ := Dictionary.resolve?_of_meaning_native ends
    exact ⟨own ▸ member, Dictionary.find?_of_meaning_native ends⟩
  next => cases status

/-- A garbled token fails and leaves what the tokens before it did, unless one of these is the last
one to be executed. -/
theorem evalTokens_of_garbled (running : i.state.status = .running) (clean : i.dictionary.Clean)
    (garbled : Garbled bad) (before after : List Token) :
    (∃ fault, i.evalTokens (before ++ bad :: after) = (.failed fault, (i.evalTokens before).2) ∧
      (i.evalTokens before).1 ≠ .shutdown) ∨
    ((∀ v, (i.evalTokens before).1 ≠ .completed v) ∧
      i.evalTokens (before ++ bad :: after) = i.evalTokens before) := by
  cases outcome : (i.evalTokens before).1 with
  | completed v =>
    have done : i.evalTokens before = (.completed v, (i.evalTokens before).2) :=
      Prod.ext outcome rfl
    have goesOn : (i.evalTokens before).2.state.status = .running :=
      running_evalTokens running (by simp [outcome])
    have clean' := clean
    rw [← dictionary_evalTokens running before] at clean'
    obtain ⟨fault, failed⟩ := execute_of_garbled clean' garbled
    refine .inl ⟨fault, ?_, by simp⟩
    rw [evalTokens_append_of_completed done, evalTokens, failed]
    exact if_neg (by simp [State.isShutdown_eq_false_iff.2 goesOn])
  | failed fault =>
    have ended : ∀ v, (i.evalTokens before).1 ≠ .completed v := by simp [outcome]
    exact .inr ⟨by simp, evalTokens_append_of_ended ended⟩
  | shutdown =>
    have ended : ∀ v, (i.evalTokens before).1 ≠ .completed v := by simp [outcome]
    exact .inr ⟨by simp, evalTokens_append_of_ended ended⟩

/-- A line of malformed bytes never succeeds, and never does harm. Where no composite word has a
garbled name, the line fails, and the session goes on, or an earlier token dispatches the native
word `bye`, which no composite word hides. The stack is left by the tokens before the first garbled
one. -/
theorem evalLine_of_malformed (i : Interpreter) (running : i.state.status = .running)
    (clean : i.dictionary.Clean) {bytes rest : List UInt8} {line : String}
    (read : Lines.readLine bytes = some (line, rest))
    (malformed : ¬ (Lines.readUntilNewline bytes).1.toByteArray.IsValidUTF8) :
    ∃ before bad after, i.split.split line = before ++ bad :: after ∧
      (∀ t ∈ before, ¬ Garbled t) ∧ Garbled bad ∧
      (i.evalLine line).2.state.ints = (i.evalTokens before).2.state.ints ∧
      (((i.evalLine line).1 = .shutdown ∧ Native.bye.name ∈ i.dispatched before ∧
          i.dictionary.find? Native.bye.name = none) ∨
        ((∃ fault, (i.evalLine line).1 = .failed fault) ∧
          (i.evalLine line).2.state.status = .running)) := by
  have garbled := Lines.garbled_of_readLine read malformed
  have nonempty : line ≠ "" := by
    rintro rfl
    cases garbled
  obtain ⟨before, bad, after, split, others, own⟩ :=
    SplitMode.exists_first_garbled garbled i.split
  refine ⟨before, bad, after, split, others, own, ?_⟩
  rw [evalLine_of_ne_empty nonempty, split]
  obtain ⟨fault, failed, goesOn⟩ | ⟨ended, same⟩ :=
    evalTokens_of_garbled running clean own before after
  · rw [failed]
    exact ⟨rfl, .inr ⟨⟨fault, rfl⟩, running_evalTokens running goesOn⟩⟩
  · rw [same]
    refine ⟨rfl, ?_⟩
    cases outcome : (i.evalTokens before).1 with
    | completed v => exact absurd outcome (ended v)
    | shutdown => exact .inl ⟨rfl, bye_of_evalTokens running outcome⟩
    | failed fault =>
      exact .inr ⟨⟨fault, rfl⟩, running_evalTokens running (by simp [outcome])⟩

/-- A session with a word of its own. -/
def pushing : Interpreter := .new (.ofList [.define "a" "1 2"]) 8 .space

/-- A word, a character of three bytes that is broken off after two, and a number. -/
def brokenOff : List UInt8 := [0x61, 0x20, 0xE2, 0x82, 0x20, 0x33, 0x0A]

/-- The word is executed and the number is not. -/
theorem evalLine_brokenOff :
    Lines.readLine brokenOff = some ("a \uFFFD 3", []) ∧
    ¬ (Lines.readUntilNewline brokenOff).1.toByteArray.IsValidUTF8 ∧ pushing.dictionary.Clean ∧
    (∀ v, (pushing.evalLine "a \uFFFD 3").1 ≠ .completed v) ∧
    (pushing.evalLine "a \uFFFD 3").2.state.ints = (pushing.evalTokens ["a"]).2.state.ints := by
  have read : Lines.readLine brokenOff = some ("a \uFFFD 3", []) := by cbv
  have malformed : ¬ (Lines.readUntilNewline brokenOff).1.toByteArray.IsValidUTF8 := by decide
  have clean : pushing.dictionary.Clean := by
    have listed : pushing.dictionary.composites = [.define "a" "1 2"] := by decide
    rw [Dictionary.Clean, listed]
    decide
  have cut : pushing.split.split "a \uFFFD 3" = ["a", "\uFFFD", "3"] := by decide
  obtain ⟨before, bad, after, split, plain, garbled, ints, ending⟩ :=
    evalLine_of_malformed pushing rfl clean read malformed
  refine ⟨read, malformed, clean, ?_, ?_⟩
  · intro v completed
    rw [completed] at ending
    obtain ⟨ended, -⟩ | ⟨⟨fault, failed⟩, -⟩ := ending
    · injection ended
    · injection failed
  · -- The first garbled token is the second one.
    suffices before = ["a"] by rw [ints, this]
    rw [cut] at split
    rcases before with _ | ⟨t, _ | ⟨u, ts⟩⟩
    · obtain ⟨rfl, -⟩ := List.cons.inj split
      exact absurd garbled (by decide)
    · obtain ⟨rfl, -⟩ := List.cons.inj split
      rfl
    · obtain ⟨-, rest⟩ := List.cons.inj split
      obtain ⟨rfl, -⟩ := List.cons.inj rest
      exact absurd (by decide) (plain "\uFFFD" (by simp))

end Interpreter

end Forth
