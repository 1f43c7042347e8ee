import Mathlib
import Forth.Proofs.DispatchLog
import Forth.Proofs.Nesting

/-!
# What faults say

A fault may arise at any depth, after any number of tokens have changed the state, and whoever
reads its report sees nothing of that. `Fault.HoldsOf` is what each fault says about the
dictionary, the limit and the state that it leaves; `Fault.subject?` is the token or word that it
names.

The fault of an execution is the fault of a single token (`exists_of_inOrder_error`), and nothing
is done after it. So what holds where the token fails still holds where the execution ends, and
the name in the fault is found by going down from the executed token through bodies
(`expand_error_holdsOf`).
-/

namespace Forth

namespace Fault

/-- What a fault says, read at the state that it leaves. -/
def HoldsOf (d : Dictionary) (limit : Nat) (s : State) : Fault → Prop
  | emptyStack => s.ints.toList = []
  | tooFewItems needed found => needed = 2 ∧ found = s.ints.size ∧ found < 2
  | unknownWord word => Token.kind word = .word ∧ d.resolve? word = none
  | uncaughtToken token => token.kind = .unrecognized
  | unreadable token cause =>
    token.kind = .number ∧ token.isFloat = false ∧ d.resolve? token = none ∧
      Decimal.readInt64 token.toList = .error cause
  | divisionByZero word =>
    ∃ w : Native, (w = .div ∨ w = .mod) ∧ word = w.name ∧ d.resolve? word = some (.native w)
  | tooDeep word l => l = limit ∧ ∃ w, d.resolve? word = some (.composite w)
  | floatUnsupported token => token.kind = .number ∧ token.isFloat = true

/-- The token or word that a fault names. -/
def subject? : Fault → Option Token
  | emptyStack | tooFewItems .. => none
  | unknownWord name | uncaughtToken name | unreadable name _ | divisionByZero name
  | tooDeep name _ | floatUnsupported name => some name

end Fault

namespace Execution

variable {d : Dictionary} {limit depth : Nat} {t : Token} {s s' : State} {fault : Fault}

/-- The fault that a token stands for is true of it in any state, and names it. -/
theorem holdsOf_of_meaning (h : d.meaning t = .fault fault) (limit : Nat) (s : State) :
    fault.HoldsOf d limit s ∧ fault.subject? = some t := by
  obtain ⟨kind, rfl⟩ | ⟨kind, unbound, rfl⟩ | ⟨kind, float, rfl⟩ |
    ⟨kind, integral, unbound, cause, unread, rfl⟩ := Dictionary.cases_of_fault h
  · exact ⟨kind, rfl⟩
  · exact ⟨⟨kind, unbound⟩, rfl⟩
  · exact ⟨⟨kind, float⟩, rfl⟩
  · exact ⟨⟨kind, integral, unbound, unread⟩, rfl⟩

/-- A native word tells what it found on the stack, or names itself. -/
theorem holdsOf_of_apply {w : Native} (stands : d.meaning t = .native w)
    (h : w.apply s = .error fault s') (limit : Nat) :
    fault.HoldsOf d limit s' ∧ ∀ name ∈ fault.subject?, name = t := by
  obtain ⟨rfl, empty, rfl⟩ | ⟨rfl, short, rfl⟩ | ⟨divides, rfl⟩ := Native.fault_of_apply h
  · exact ⟨empty, by simp [Fault.subject?]⟩
  · exact ⟨⟨rfl, rfl, short⟩, by simp [Fault.subject?]⟩
  · obtain ⟨rfl, bound⟩ := Dictionary.resolve?_of_meaning_native stands
    exact ⟨⟨w, divides, rfl, bound⟩, by simp [Fault.subject?]⟩

/-- What a token fails with is true of the state that it leaves, and names the token or one that it
leads to. -/
theorem expand_error_holdsOf (h : expand d limit depth t s = .error fault s') :
    fault.HoldsOf d limit s' ∧
      ∀ name ∈ fault.subject?, Relation.ReflTransGen d.Mentions t name := by
  induction depth, t using expand.induct d limit generalizing s with
  | case1 depth t n stands =>
    rw [expand_of_number stands] at h
    injection h
  | case2 depth t w stands =>
    rw [expand_of_native stands] at h
    obtain ⟨holds, own⟩ := holdsOf_of_apply stands h limit
    refine ⟨holds, fun name named => ?_⟩
    rw [own name named]
  | case3 depth t w stands deep =>
    rw [expand_of_too_deep stands deep] at h
    injection h with same
    have found := Dictionary.find?_of_meaning stands
    have own : w.name = t := Dictionary.name_of_find? found
    rw [← same, own]
    refine ⟨⟨rfl, w, by rw [Dictionary.resolve?, found]⟩, fun name named => ?_⟩
    obtain rfl : t = name := by simpa [Fault.subject?] using named
    exact .refl
  | case4 depth t w stands shallow ih =>
    -- The token of the body that failed was the last thing to happen.
    rw [expand_of_composite stands (Nat.lt_of_not_le shallow)] at h
    obtain ⟨u, member, s₁, -, failed⟩ := exists_of_inOrder_error h
    obtain ⟨holds, reached⟩ := ih u failed
    exact ⟨holds, fun name named => .head ⟨w, stands, member⟩ (reached name named)⟩
  | case5 depth t cause stands =>
    rw [expand_of_fault stands] at h
    injection h with same _
    rw [same] at stands
    obtain ⟨holds, own⟩ := holdsOf_of_meaning stands limit s'
    refine ⟨holds, fun name named => ?_⟩
    obtain rfl : t = name := by simpa [own] using named
    exact .refl

theorem status_of_expand_error (h : expand d limit 0 t s = .error fault s') :
    s'.status = s.status := by
  have account := account_execute d limit t s
  rw [execute_eq_expand, h] at account
  exact account.status_of_error

end Execution

namespace Interpreter

/-- A reported fault is true of the state it leaves. The status is as before; a stack that was found
short is that short now; what a token or a word is said to be, or not to be, it is in the
dictionary; and the token or word that is named is the executed one or is reached from it through
the bodies of composite words. -/
theorem fault_true_where_left (i : Interpreter) (t : Token) (fault : Fault)
    (failed : (i.execute t).1 = .error fault) :
    (i.execute t).2.state.status = i.state.status ∧
      fault.HoldsOf i.dictionary i.maxDepth (i.execute t).2.state ∧
      ∀ name ∈ fault.subject?, Relation.ReflTransGen i.dictionary.Mentions t name := by
  obtain ⟨s, failed⟩ := expand_of_execute_error failed
  rw [execute_of_expand_error failed]
  exact ⟨Execution.status_of_expand_error failed, Execution.expand_error_holdsOf failed⟩

/-- A session in which a name is missing, two words away. -/
def lacking : Interpreter := .new (.ofList [.define "in" "no bye", .define "out" "in in"]) 8 .space

/-- It is the missing name that is reported, and not the word that was executed. The session goes
on. -/
theorem fault_true_of_lacking :
    (lacking.execute "out").1 = .error (.unknownWord "no") ∧
    (lacking.execute "out").2.state.status = .running ∧
    lacking.dictionary.resolve? "no" = none ∧
    Relation.ReflTransGen lacking.dictionary.Mentions "out" "no" := by
  have failed : (lacking.execute "out").1 = .error (.unknownWord "no") := by cbv
  obtain ⟨status, ⟨-, unbound⟩, reached⟩ := fault_true_where_left lacking "out" _ failed
  refine ⟨failed, ?_, unbound, reached "no" rfl⟩
  rw [status]
  rfl

end Interpreter

end Forth
