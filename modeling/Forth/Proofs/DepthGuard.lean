import Mathlib.Data.List.Chain
import Forth.Proofs.Nesting
import Forth.Proofs.Recursion

/-!
# The depth limit and the nesting of words

The limit counts words under way while a token is executed; nesting is a matter of the dictionary
alone. They agree: a token found too deep comes with a descent that shows it
(`exists_descent_of_tooDeep`), and no descent goes further than words nest
(`Descent.length_le_nesting`), so a token whose nesting fits is never found too deep. One that
succeeds without ending the session does fit (`nesting_le_of_expand_ok`).
-/

namespace Forth

namespace Dictionary

/-- The tokens lead from `t` down to `u`: all of them are expandable, and each is in the body of
the one before. -/
structure Descent (d : Dictionary) (t u : Token) (chain : List Token) : Prop where
  head : chain.head? = some t
  last : chain.getLast? = some u
  expandable : ∀ v ∈ chain, d.Expandable v
  mentions : chain.IsChain d.Mentions

theorem Descent.single {d : Dictionary} {t : Token} (h : d.Expandable t) : d.Descent t t [t] := by
  refine ⟨rfl, rfl, ?_, .singleton t⟩
  intro v member
  rwa [List.mem_singleton.1 member]

theorem Descent.cons {d : Dictionary} {t u v : Token} {chain : List Token} (h : d.Mentions t u)
    (descent : d.Descent u v chain) : d.Descent t v (t :: chain) := by
  obtain ⟨head, last, expandable, mentions⟩ := descent
  cases chain with
  | nil => cases head
  | cons u' chain =>
    obtain rfl : u' = u := by simpa using head
    refine ⟨rfl, ?_, ?_, .cons_cons h mentions⟩
    · rwa [List.getLast?_cons_cons]
    · intro x member
      rcases List.mem_cons.1 member with rfl | member
      · exact ⟨h.choose, h.choose_spec.1⟩
      · exact expandable x member

/-- A descent goes no further than words nest. -/
theorem Descent.length_le_nesting {d : Dictionary} {t u : Token} {chain : List Token}
    (descent : d.Descent t u chain) : chain.length ≤ d.nesting t := by
  obtain ⟨head, -, expandable, mentions⟩ := descent
  induction chain generalizing t with
  | nil => cases head
  | cons v chain ih =>
    obtain rfl : v = t := by simpa using head
    cases chain with
    | nil =>
      obtain ⟨w, stands⟩ := expandable v List.mem_cons_self
      rw [nesting_of_composite stands]
      exact le_add_self
    | cons v' chain =>
      obtain ⟨first, rest⟩ := List.isChain_cons_cons.1 mentions
      have below : (v' :: chain).length ≤ d.nesting v' :=
        ih rfl (fun x member => expandable x (List.mem_cons_of_mem v member)) rest
      calc ((v :: v' :: chain).length : ℕ∞)
          = (v' :: chain).length + 1 := by rw [List.length_cons, Nat.cast_succ]
        _ ≤ d.nesting v' + 1 := add_le_add_left below 1
        _ ≤ d.nesting v := nesting_add_one_le first

variable {d : Dictionary} {t : Token} {w : Composite} {limit depth : Nat}

/-- A word fits into the depth that is left if its body fits one level deeper. -/
theorem nesting_le_sub_iff (h : d.meaning t = .composite w) (shallow : depth < limit) :
    d.nesting t ≤ (limit - depth : Nat) ↔
      ∀ u ∈ w.tokens.toList, d.nesting u ≤ (limit - (depth + 1) : Nat) := by
  have left : limit - depth = limit - (depth + 1) + 1 := by omega
  rw [left]
  exact nesting_le_succ_iff h

/-- A word that fits is met below the limit. -/
theorem lt_of_nesting_le_sub (h : d.meaning t = .composite w)
    (fits : d.nesting t ≤ (limit - depth : Nat)) : depth < limit := by
  by_contra deep
  rw [Nat.sub_eq_zero_of_le (Nat.le_of_not_lt deep)] at fits
  exact not_nesting_le_zero h fits

end Dictionary

namespace Execution

variable {d : Dictionary} {limit depth : Nat} {t : Token} {s s' : State} {word : String} {l : Nat}

/-- A token is found too deep because it is, or because a token of its body is. -/
theorem cases_of_tooDeep (h : expand d limit depth t s = .error (.tooDeep word l) s') :
    ∃ w, d.meaning t = .composite w ∧
      (limit ≤ depth ∧ word = t ∧ l = limit ∨
        depth < limit ∧ ∃ u ∈ w.tokens.toList, ∃ s₁,
          expand d limit (depth + 1) u s₁ = .error (.tooDeep word l) s') := by
  cases stands : d.meaning t with
  | number n =>
    rw [expand_of_number stands] at h
    injection h
  | native w =>
    rw [expand_of_native stands] at h
    rcases Native.fault_of_apply h with ⟨fault, -⟩ | ⟨fault, -⟩ | ⟨-, fault⟩ <;> injection fault
  | composite w =>
    refine ⟨w, rfl, ?_⟩
    by_cases deep : limit ≤ depth
    · rw [expand_of_too_deep stands deep] at h
      injection h with same
      injection same with named limited
      have own : w.name = t := Dictionary.name_of_find? (Dictionary.find?_of_meaning stands)
      exact .inl ⟨deep, named.symm.trans own, limited.symm⟩
    · have shallow := Nat.lt_of_not_le deep
      rw [expand_of_composite stands shallow] at h
      obtain ⟨u, member, s₁, -, failed⟩ := exists_of_inOrder_error h
      exact .inr ⟨shallow, u, member, s₁, failed⟩
  | fault fault =>
    rw [expand_of_fault stands] at h
    injection h with same
    rw [same] at stands
    rcases Dictionary.fault_of_meaning stands with fault | fault | fault | ⟨_, fault⟩ <;>
      injection fault

/-- A token that succeeds and lets the session go on fits into the depth that is left. -/
theorem nesting_le_of_expand_ok (h : expand d limit depth t s = .ok () s')
    (running : s'.isShutdown = false) : d.nesting t ≤ (limit - depth : Nat) := by
  induction depth, t using expand.induct d limit generalizing s s' with
  | case3 depth t w stands deep =>
    rw [expand_of_too_deep stands deep] at h
    injection h
  | case4 depth t w stands shallow ih =>
    have shallow := Nat.lt_of_not_le shallow
    rw [expand_of_composite stands shallow] at h
    refine (Dictionary.nesting_le_sub_iff stands shallow).2 fun u member => ?_
    obtain ⟨s₁, s₂, succeeded, still⟩ := forall_of_inOrder_ok h running u member
    exact ih u succeeded still
  | case1 depth t _ stands | case2 depth t _ stands | case5 depth t _ stands =>
    have leaf : ¬ d.Expandable t := by simp [Dictionary.Expandable, stands]
    rw [Dictionary.nesting_of_not_expandable leaf]
    exact bot_le

/-- From the depth at which it is met, a token that is found too deep descends to the limit. -/
theorem exists_descent_of_tooDeep (h : expand d limit depth t s = .error (.tooDeep word l) s')
    (within : depth ≤ limit) :
    l = limit ∧ ∃ chain, d.Descent t word chain ∧ chain.length = limit - depth + 1 := by
  -- On the depth that is left: each token of the descent is met one level below the one before.
  induction left : limit - depth generalizing depth t s with
  | zero =>
    obtain ⟨w, stands, ⟨-, rfl, same⟩ | ⟨shallow, -⟩⟩ := cases_of_tooDeep h
    · exact ⟨same, [_], .single ⟨w, stands⟩, rfl⟩
    · omega
  | succ n ih =>
    obtain ⟨w, stands, ⟨deep, -⟩ | ⟨shallow, u, member, s₁, failed⟩⟩ := cases_of_tooDeep h
    · omega
    · obtain ⟨same, chain, descent, length⟩ := ih failed shallow (by omega)
      refine ⟨same, t :: chain, .cons ⟨w, stands, member⟩ descent, ?_⟩
      rw [List.length_cons, length]

end Execution

namespace Interpreter

open Execution

variable {i : Interpreter} {t : Token}

/-- A token found too deep descends one word further than the limit allows. -/
theorem exists_descent_of_execute {word : String} {limit : Nat}
    (found : (i.execute t).1 = .error (.tooDeep word limit)) :
    limit = i.maxDepth ∧
      ∃ chain, i.dictionary.Descent t word chain ∧ chain.length = limit + 1 := by
  obtain ⟨s, failed⟩ := expand_of_execute_error found
  obtain ⟨limited, chain, descent, length⟩ := exists_descent_of_tooDeep failed (Nat.zero_le _)
  refine ⟨limited, chain, descent, ?_⟩
  rw [length, limited, Nat.sub_zero]

/-- A token that succeeds and lets the session go on does not nest deeper than the limit. -/
theorem nesting_le_of_execute_ok (succeeded : (i.execute t).1 = .ok ())
    (running : (i.execute t).2.state.isShutdown = false) :
    i.dictionary.nesting t ≤ i.maxDepth :=
  nesting_le_of_expand_ok (expand_of_execute_ok succeeded) running

/-- The depth limit finds out exactly the tokens that nest deeper than it: they fail or end the
session, all others are never too deep, and a token found too deep descends one word further than
the limit allows. In particular no limit is enough for a token that comes back to itself. -/
theorem depth_guard_exact (i : Interpreter) (t : Token) :
    (i.dictionary.nesting t ≤ i.maxDepth →
      ∀ word limit, (i.execute t).1 ≠ .error (.tooDeep word limit)) ∧
    (i.maxDepth < i.dictionary.nesting t →
      (∃ fault, (i.execute t).1 = .error fault) ∨ (i.execute t).2.state.status = .shutdown) ∧
    (Relation.TransGen i.dictionary.Mentions t t → i.maxDepth < i.dictionary.nesting t) ∧
    ∀ word limit, (i.execute t).1 = .error (.tooDeep word limit) →
      limit = i.maxDepth ∧
        ∃ chain, i.dictionary.Descent t word chain ∧ chain.length = limit + 1 := by
  refine ⟨?_, ?_, ?_, fun word limit => exists_descent_of_execute⟩
  · intro fits word limit found
    obtain ⟨rfl, chain, descent, length⟩ := exists_descent_of_execute found
    have deep := descent.length_le_nesting.trans fits
    rw [length, Nat.cast_le] at deep
    exact absurd deep (Nat.not_succ_le_self i.maxDepth)
  · intro deep
    cases result : (i.execute t).1 with
    | error fault => exact .inl ⟨fault, rfl⟩
    | ok _ =>
      refine .inr (State.isShutdown_iff.1 ?_)
      by_contra running
      exact absurd (nesting_le_of_execute_ok result (by simpa using running)) (not_le_of_gt deep)
  · intro cycle
    rw [Dictionary.nesting_eq_top_of_cycle cycle]
    exact ENat.natCast_lt_top i.maxDepth

/-- The word `loop` mentions itself, so a limit of two is as useless as any. -/
theorem depth_guard_loop :
    Relation.TransGen (Dictionary.ofList [.define "loop" "1 loop"]).Mentions "loop" "loop" ∧
    ((∃ fault, ((new (.ofList [.define "loop" "1 loop"]) 2 .space).execute "loop").1 =
        .error fault) ∨
      ((new (.ofList [.define "loop" "1 loop"]) 2 .space).execute "loop").2.state.status =
        .shutdown) := by
  have cycle : Relation.TransGen (Dictionary.ofList [.define "loop" "1 loop"]).Mentions
      "loop" "loop" := .single ⟨.define "loop" "1 loop", rfl, by decide⟩
  obtain ⟨-, fails, deep, -⟩ :=
    depth_guard_exact (new (.ofList [.define "loop" "1 loop"]) 2 .space) "loop"
  exact ⟨cycle, fails (deep cycle)⟩

end Interpreter

end Forth
