import Mathlib
import Forth.Proofs.Macros
import Forth.Proofs.Shutdown

/-!
# The definitions that a line can reach

A line looks up its own tokens, the tokens of the bodies that those are bound to, and so on: what it
can reach is the least set of tokens that holds the line's and is closed under bodies
(`Dictionary.Reaches`). Words may mention themselves and each other, so the set is given by rules
and not by following the bodies down to an end.

Two dictionaries that agree on what can be reached are the same to a line. A token is looked up in
two ways, as a word and, if it is a number that cannot be read, as something that may be bound at
all; what it stands for depends on its binding alone in either case (`Dictionary.meaning_congr`).
From there on the two executions are one (`Execution.expand_of_reaches`).
-/

namespace Forth

/-- The tokens that can be looked up when the given ones are executed: these tokens, and with each
of them the body of the composite word that it is bound to. -/
inductive Dictionary.Reaches (d : Dictionary) (ts : List Token) : Token → Prop where
  | start {t : Token} (member : t ∈ ts) : Reaches d ts t
  | body {t u : Token} {w : Composite} (reached : Reaches d ts t)
      (bound : d.resolve? t = some (.composite w)) (member : u ∈ w.tokens.toList) : Reaches d ts u

/-- No smaller set will do: one that holds the tokens and is closed under bodies holds all that can
be reached. -/
theorem Dictionary.Reaches.mem_of_closed {d : Dictionary} {ts : List Token} {S : Set Token}
    (start : ∀ t ∈ ts, t ∈ S)
    (closed : ∀ t ∈ S, ∀ w, d.resolve? t = some (.composite w) → ∀ u ∈ w.tokens.toList, u ∈ S)
    {t : Token} (reached : d.Reaches ts t) : t ∈ S := by
  induction reached with
  | start member => exact start _ member
  | body _ bound member ih => exact closed _ ih _ bound _ member

/-- The dictionaries bind everything that the tokens can reach to the same. -/
def Dictionary.AgreeFrom (d e : Dictionary) (ts : List Token) : Prop :=
  ∀ t, d.Reaches ts t → e.resolve? t = d.resolve? t

theorem Dictionary.resolve?_of_meaning_composite {d : Dictionary} {t : Token} {w : Composite}
    (h : d.meaning t = .composite w) : d.resolve? t = some (.composite w) := by
  rw [resolve?, find?_of_meaning h]

/-- A token that can be reached does the same under both dictionaries, at whatever depth. -/
theorem Execution.expand_of_reaches {d e : Dictionary} {ts : List Token} (agree : d.AgreeFrom e ts)
    (limit depth : Nat) {t : Token} (reached : d.Reaches ts t) :
    expand e limit depth t = expand d limit depth t := by
  have same : e.meaning t = d.meaning t := Dictionary.meaning_congr (agree t reached)
  induction depth, t using expand.induct d limit with
  | case3 depth t w stands deep =>
    rw [expand_of_too_deep stands deep, expand_of_too_deep (same.trans stands) deep]
  | case4 depth t w stands shallow ih =>
    have shallow := Nat.lt_of_not_le shallow
    rw [expand_of_composite stands shallow, expand_of_composite (same.trans stands) shallow]
    refine inOrder_congr fun u member => ?_
    have within : d.Reaches ts u :=
      reached.body (Dictionary.resolve?_of_meaning_composite stands) member
    exact ih u within (Dictionary.meaning_congr (agree u within))
  | case1 depth t _ stands | case2 depth t _ stands | case5 depth t _ stands =>
    exact expand_leaf (by simp [Dictionary.Expandable, stands]) same

namespace Interpreter

/-- The same session with other words. -/
def withDictionary (i : Interpreter) (e : Dictionary) : Interpreter := { i with dictionary := e }

variable {i : Interpreter} {e : Dictionary} {ts us : List Token} {t : Token}

theorem execute_withDictionary (agree : i.dictionary.AgreeFrom e ts)
    (reached : i.dictionary.Reaches ts t) :
    (i.withDictionary e).execute t = ((i.execute t).1, (i.execute t).2.withDictionary e) := by
  have same := Execution.expand_of_reaches agree i.maxDepth 0 reached
  cases result : Execution.expand i.dictionary i.maxDepth 0 t i.state with
  | ok _ s =>
    have other :
        (i.withDictionary e).execute t = (.ok (), { i.withDictionary e with state := s }) :=
      execute_of_expand_ok ((congrFun same i.state).trans result)
    rw [execute_of_expand_ok result, other]
    rfl
  | error fault s =>
    have other : (i.withDictionary e).execute t =
        (.error fault, { i.withDictionary e with state := s }) :=
      execute_of_expand_error ((congrFun same i.state).trans result)
    rw [execute_of_expand_error result, other]
    rfl

/-- So do tokens in order that all can be reached. -/
theorem evalTokens_withDictionary (agree : i.dictionary.AgreeFrom e ts)
    (reached : ∀ u ∈ us, i.dictionary.Reaches ts u) :
    (i.withDictionary e).evalTokens us =
      ((i.evalTokens us).1, (i.evalTokens us).2.withDictionary e) := by
  induction us generalizing i with
  | nil => rfl
  | cons u us ih =>
    obtain ⟨first, later⟩ := List.forall_mem_cons.1 reached
    have words := dictionary_execute i u
    rw [evalTokens, evalTokens, execute_withDictionary agree first]
    cases result : i.execute u with
    | mk answer next =>
      rw [result] at words
      have stands : (next.withDictionary e).state = next.state := rfl
      simp only [stands]
      cases shut : next.state.isShutdown with
      | true => rfl
      | false =>
        cases answer with
        | error fault => rfl
        | ok _ => exact ih (i := next) (words ▸ agree) (words ▸ later)

/-- A line does not depend on definitions that it cannot reach. Whatever the session and however the
line ends, with another dictionary that binds the same to all that the line can reach, the outcome
is the same, and the session after it differs in nothing but the dictionary. -/
theorem evalLine_withDictionary (i : Interpreter) (e : Dictionary) (line : String)
    (agree : i.dictionary.AgreeFrom e (i.tokensOf line)) :
    (i.withDictionary e).evalLine line =
      ((i.evalLine line).1, (i.evalLine line).2.withDictionary e) := by
  by_cases empty : line = ""
  · subst empty
    rfl
  · have tokens : i.tokensOf line = i.split.split line := tokensOf_of_ne_empty empty
    have same := evalTokens_withDictionary agree fun u member => .start member
    have other : (i.withDictionary e).evalLine line =
        (((i.withDictionary e).evalTokens (i.split.split line)).1,
          ((i.withDictionary e).evalTokens (i.split.split line)).2.clearValue) :=
      evalLine_of_ne_empty empty
    rw [tokens] at same
    rw [other, same, evalLine_of_ne_empty empty]
    rfl

/-- A session with two words that mention each other, one of which is first read as a number. -/
def circling : Interpreter := .new (.ofList [.define "-a" "1 b", .define "b" "-a ."]) 4 .space

/-- The two words, and others that neither of them mentions. One of these hides `bye`, and one
mentions the two. -/
def encircled : Dictionary :=
  .ofList [.define "-a" "1 b", .define "b" "-a .", .define "bye" "2", .define "c" "-a b"]

/-- From `-a` only `b` and what is in the two bodies can be reached, and the words beside them make
no difference, not even where the limit is met. -/
theorem evalLine_encircled :
    circling.dictionary.AgreeFrom encircled (circling.tokensOf "-a") ∧
    (circling.evalLine "-a").1 = .failed (.tooDeep "-a" 4) ∧
    (circling.withDictionary encircled).evalLine "-a" =
      (.failed (.tooDeep "-a" 4), (circling.evalLine "-a").2.withDictionary encircled) := by
  have line : circling.tokensOf "-a" = ["-a"] := by decide
  have a : circling.dictionary.resolve? "-a" = some (.composite (.define "-a" "1 b")) := by decide
  have b : circling.dictionary.resolve? "b" = some (.composite (.define "b" "-a .")) := by decide
  have one : circling.dictionary.resolve? "1" = none := by decide
  have dot : circling.dictionary.resolve? "." = some (.native .dot) := by decide
  have bodyA : (Composite.define "-a" "1 b").tokens.toList = ["1", "b"] := by decide
  have bodyB : (Composite.define "b" "-a .").tokens.toList = ["-a", "."] := by decide
  have within {t : Token} (reached : circling.dictionary.Reaches (circling.tokensOf "-a") t) :
      t ∈ ({"-a", "b", "1", "."} : Set Token) := by
    refine reached.mem_of_closed (by simp [line]) ?_
    rintro t (rfl | rfl | rfl | rfl) w bound
    · cases a.symm.trans bound
      rw [bodyA]
      simp
    · cases b.symm.trans bound
      rw [bodyB]
      simp
    · cases one.symm.trans bound
    · cases dot.symm.trans bound
  have agree : circling.dictionary.AgreeFrom encircled (circling.tokensOf "-a") := by
    intro t reached
    obtain rfl | rfl | rfl | rfl := within reached
    · exact Eq.trans (by decide) a.symm
    · exact Eq.trans (by decide) b.symm
    · exact Eq.trans (by decide) one.symm
    · exact Eq.trans (by decide) dot.symm
  have failed : (circling.evalLine "-a").1 = .failed (.tooDeep "-a" 4) := by cbv
  refine ⟨agree, failed, ?_⟩
  rw [evalLine_withDictionary circling encircled "-a" agree, failed]

end Interpreter

end Forth
