import Mathlib.Logic.Function.Iterate
import Forth.Proofs.DepthGuard

/-!
# Composite words are macros

A round of expansion puts the body of its word in the place of every token that is expandable
(`expandOnce`). Where words do not nest forever, as many rounds as they nest leave a list without
expandable tokens, and no more rounds change it; that list is the expansion of the tokens.

Within the depth limit a round does not change what the tokens do in order, because nothing that
a token does depends on the depth at which it is met (`expand_congr_depth`). What is left at the
end are tokens that mean the same without any composite words. So a line can be evaluated by
expanding it first and forgetting the composite words.
-/

namespace Forth

namespace Dictionary

instance (d : Dictionary) (t : Token) : Decidable (d.Expandable t) :=
  match h : d.meaning t with
  | .composite w => .isTrue ⟨w, h⟩
  | .number _ | .native _ | .fault _ => .isFalse fun ⟨_, stands⟩ => by simp [h] at stands

/-- What stands in the place of a token after a round: the body of its word, or the token. -/
def replacement (d : Dictionary) (t : Token) : List Token :=
  match d.meaning t with
  | .composite w => w.tokens.toList
  | _ => [t]

/-- A round of expansion. -/
def expandOnce (d : Dictionary) (ts : List Token) : List Token := ts.flatMap d.replacement

/-- Rounds of expansion lead from the tokens to a list where nothing is left to expand. -/
structure Expansion (d : Dictionary) (ts expanded : List Token) : Prop where
  rounds : ∃ n, d.expandOnce^[n] ts = expanded
  done : ∀ t ∈ expanded, ¬ d.Expandable t

section

variable {d : Dictionary} {t u : Token} {ts expanded : List Token} {n : Nat}

theorem replacement_of_composite {w : Composite} (h : d.meaning t = .composite w) :
    d.replacement t = w.tokens.toList := by
  rw [replacement, h]

theorem replacement_of_not_expandable (h : ¬ d.Expandable t) : d.replacement t = [t] := by
  unfold replacement
  split
  next w stands => exact absurd ⟨w, stands⟩ h
  next => rfl

theorem mem_expandOnce : u ∈ d.expandOnce ts ↔ ∃ t ∈ ts, u ∈ d.replacement t :=
  List.mem_flatMap

theorem expandOnce_of_done (done : ∀ t ∈ ts, ¬ d.Expandable t) : d.expandOnce ts = ts := by
  induction ts with
  | nil => rfl
  | cons t ts ih =>
    rw [expandOnce, List.flatMap_cons, replacement_of_not_expandable (done t List.mem_cons_self)]
    exact congrArg (t :: ·) (ih fun u member => done u (List.mem_cons_of_mem t member))

/-- Once nothing is left to expand, more rounds change nothing. -/
theorem iterate_expandOnce_of_done {m : Nat} (done : ∀ t ∈ d.expandOnce^[n] ts, ¬ d.Expandable t)
    (le : n ≤ m) : d.expandOnce^[m] ts = d.expandOnce^[n] ts := by
  obtain ⟨k, rfl⟩ := Nat.exists_eq_add_of_le' le
  rw [Function.iterate_add_apply, Function.iterate_fixed (expandOnce_of_done done)]

theorem Expansion.unique {expanded' : List Token} (h : d.Expansion ts expanded)
    (h' : d.Expansion ts expanded') : expanded = expanded' := by
  obtain ⟨⟨n, rfl⟩, done⟩ := h
  obtain ⟨⟨m, rfl⟩, done'⟩ := h'
  cases Nat.le_total n m with
  | inl le => rw [iterate_expandOnce_of_done done le]
  | inr le => rw [iterate_expandOnce_of_done done' le]

/-- A round never lets words nest deeper. -/
theorem nesting_le_of_mem_replacement (h : u ∈ d.replacement t) : d.nesting u ≤ d.nesting t := by
  by_cases expandable : d.Expandable t
  · obtain ⟨w, stands⟩ := expandable
    rw [replacement_of_composite stands] at h
    exact le_self_add.trans (nesting_add_one_le ⟨w, stands, h⟩)
  · rw [replacement_of_not_expandable expandable] at h
    rw [List.mem_singleton.1 h]

/-- A round takes one level off the nesting. -/
theorem nesting_le_of_mem_expandOnce (fits : ∀ t ∈ ts, d.nesting t ≤ (n + 1 : Nat))
    (member : u ∈ d.expandOnce ts) : d.nesting u ≤ n := by
  obtain ⟨t, within, replaced⟩ := mem_expandOnce.1 member
  by_cases expandable : d.Expandable t
  · obtain ⟨w, stands⟩ := expandable
    rw [replacement_of_composite stands] at replaced
    exact (nesting_le_succ_iff stands).1 (fits t within) u replaced
  · rw [replacement_of_not_expandable expandable] at replaced
    rw [List.mem_singleton.1 replaced, nesting_of_not_expandable expandable]
    exact bot_le

/-- As many rounds as words nest are enough. -/
theorem expansion_of_nesting_le (fits : ∀ t ∈ ts, d.nesting t ≤ n) :
    d.Expansion ts (d.expandOnce^[n] ts) := by
  refine ⟨⟨n, rfl⟩, ?_⟩
  induction n generalizing ts with
  | zero =>
    rintro t member ⟨w, stands⟩
    exact not_nesting_le_zero stands (fits t member)
  | succ n ih =>
    rw [Function.iterate_succ_apply]
    exact ih fun u member => nesting_le_of_mem_expandOnce fits member

/-- Without the composite words, a token that is not expandable means what it meant. A composite
word of its name, if there is one, was never looked at. -/
theorem meaning_empty (h : ¬ d.Expandable t) : empty.meaning t = d.meaning t := by
  cases found : d.find? t with
  | none =>
    apply meaning_congr
    rw [resolve?, resolve?, found, find?_empty]
  | some w =>
    have stands : d.wordMeaning t = .composite w := by rw [wordMeaning, resolve?, found]
    have known : d.contains t = true := by
      rw [contains_iff, resolve?, found]
      rfl
    have unread : d.meaning t ≠ .composite w := fun expands => h ⟨w, expands⟩
    cases kind : t.kind with
    | unrecognized => simp only [meaning, kind]
    | word =>
      simp only [meaning, kind] at unread
      exact absurd stands unread
    | number =>
      by_cases float : t.isFloat = true
      · simp only [meaning, kind, float, if_true]
      cases read : Decimal.readInt64 t.toList with
      | ok n => simp only [meaning, kind, float, read]
      | error cause =>
        simp only [meaning, kind, float, read, known, if_true, Bool.false_eq_true, if_false]
          at unread
        exact absurd stands unread

end

end Dictionary

namespace Execution

variable {d : Dictionary} {limit limit' depth depth' : Nat} {t : Token} {ts : List Token}
variable {s : State}

theorem inOrder_congr {act act' : Token → Action Unit} (h : ∀ t ∈ ts, act t = act' t) :
    inOrder act ts = inOrder act' ts := by
  induction ts with
  | nil => rfl
  | cons t ts ih =>
    rw [inOrder, inOrder, h t List.mem_cons_self,
      ih fun u member => h u (List.mem_cons_of_mem t member)]

/-- A token that is not expandable does what it stands for, whatever is under way. -/
theorem expand_leaf {e : Dictionary} (leaf : ¬ d.Expandable t) (h : e.meaning t = d.meaning t) :
    expand e limit' depth' t = expand d limit depth t := by
  cases stands : d.meaning t with
  | number n => rw [expand_of_number stands, expand_of_number (h.trans stands)]
  | native w => rw [expand_of_native stands, expand_of_native (h.trans stands)]
  | fault fault => rw [expand_of_fault stands, expand_of_fault (h.trans stands)]
  | composite w => exact absurd ⟨w, stands⟩ leaf

/-- Nothing that a token does depends on the depth at which it is met, nor on the limit, as long
as it fits. -/
theorem expand_congr_depth (fits : d.nesting t ≤ (limit - depth : Nat))
    (fits' : d.nesting t ≤ (limit' - depth' : Nat)) :
    expand d limit depth t = expand d limit' depth' t := by
  -- The recursion is followed at one depth; the other goes along with it, by what fits there.
  induction depth, t using expand.induct d limit generalizing depth' with
  | case3 depth t w stands deep =>
    exact absurd (Dictionary.lt_of_nesting_le_sub stands fits) (Nat.not_lt_of_le deep)
  | case4 depth t w stands shallow ih =>
    have shallow := Nat.lt_of_not_le shallow
    have shallow' := Dictionary.lt_of_nesting_le_sub stands fits'
    rw [expand_of_composite stands shallow, expand_of_composite stands shallow']
    refine inOrder_congr fun u member => ih u ?_ ?_
    · exact (Dictionary.nesting_le_sub_iff stands shallow).1 fits u member
    · exact (Dictionary.nesting_le_sub_iff stands shallow').1 fits' u member
  | case1 depth t _ stands | case2 depth t _ stands | case5 depth t _ stands =>
    exact expand_leaf (by simp [Dictionary.Expandable, stands]) rfl

/-- What a token gives way to does what the token does. -/
theorem inOrder_replacement (fits : d.nesting t ≤ limit) (running : s.isShutdown = false) :
    inOrder (expand d limit 0) (d.replacement t) s = expand d limit 0 t s := by
  by_cases expandable : d.Expandable t
  · obtain ⟨w, stands⟩ := expandable
    have shallow : 0 < limit := Dictionary.lt_of_nesting_le_sub stands fits
    rw [Dictionary.replacement_of_composite stands, expand_of_composite stands shallow]
    have inner := (Dictionary.nesting_le_sub_iff stands shallow).1 fits
    have same : ∀ u ∈ w.tokens.toList, expand d limit 0 u = expand d limit 1 u := by
      intro u member
      refine expand_congr_depth ((inner u member).trans ?_) (inner u member)
      exact Nat.cast_le.2 (Nat.sub_le_sub_left (Nat.zero_le 1) limit)
    rw [inOrder_congr same]
  · rw [Dictionary.replacement_of_not_expandable expandable, inOrder_cons running]
    exact congrFun bind_pure_unit s

/-- A round of expansion does not change what the tokens do in order. -/
theorem inOrder_expandOnce (fits : ∀ t ∈ ts, d.nesting t ≤ limit) :
    inOrder (expand d limit 0) (d.expandOnce ts) s = inOrder (expand d limit 0) ts s := by
  induction ts generalizing s with
  | nil => rfl
  | cons t ts ih =>
    cases shut : s.isShutdown with
    | true => rw [inOrder_of_shutdown shut, inOrder_of_shutdown shut]
    | false =>
      have first := inOrder_replacement (fits t List.mem_cons_self) shut
      have rest : inOrder (expand d limit 0) (d.expandOnce ts) = inOrder (expand d limit 0) ts :=
        funext fun _ => ih fun u member => fits u (List.mem_cons_of_mem t member)
      rw [Dictionary.expandOnce, List.flatMap_cons, inOrder_append, ← Dictionary.expandOnce,
        Action.bind_congr first, rest, inOrder_cons shut]

/-- Nor do any number of them. -/
theorem inOrder_rounds (n : Nat) (fits : ∀ t ∈ ts, d.nesting t ≤ limit) :
    inOrder (expand d limit 0) (d.expandOnce^[n] ts) s = inOrder (expand d limit 0) ts s := by
  induction n generalizing ts with
  | zero => rfl
  | succ n ih =>
    rw [Function.iterate_succ_apply, ih, inOrder_expandOnce fits]
    intro u member
    obtain ⟨t, within, replaced⟩ := Dictionary.mem_expandOnce.1 member
    exact (Dictionary.nesting_le_of_mem_replacement replaced).trans (fits t within)

/-- The expansion of the tokens, executed without any composite words, does what they do. -/
theorem inOrder_expansion {expanded : List Token} (fits : ∀ t ∈ ts, d.nesting t ≤ limit)
    (expansion : d.Expansion ts expanded) :
    inOrder (expand .empty limit 0) expanded s = inOrder (expand d limit 0) ts s := by
  obtain ⟨⟨n, rfl⟩, done⟩ := expansion
  have leaves : ∀ t ∈ d.expandOnce^[n] ts, expand .empty limit 0 t = expand d limit 0 t :=
    fun t member => expand_leaf (done t member) (Dictionary.meaning_empty (done t member))
  rw [inOrder_congr leaves, inOrder_rounds n fits]

end Execution

namespace Interpreter

/-- The same session, with the composite words forgotten. -/
def withoutComposites (i : Interpreter) : Interpreter := { i with dictionary := .empty }

/-- Tokens and their expansion come to the same outcome and leave the same state. -/
theorem evalTokens_expansion {i : Interpreter} {ts expanded : List Token}
    (running : i.state.isShutdown = false)
    (fits : ∀ t ∈ ts, i.dictionary.nesting t ≤ i.maxDepth)
    (expansion : i.dictionary.Expansion ts expanded) :
    (i.evalTokens ts).1 = (i.withoutComposites.evalTokens expanded).1 ∧
      (i.evalTokens ts).2.state = (i.withoutComposites.evalTokens expanded).2.state := by
  have same : Execution.inOrder (Execution.expand .empty i.maxDepth 0) expanded i.state =
      Execution.inOrder (Execution.expand i.dictionary i.maxDepth 0) ts i.state :=
    Execution.inOrder_expansion fits expansion
  have bare := evalTokens_eq_conclude i.withoutComposites expanded running
  rw [evalTokens_eq_conclude i ts running, bare, ← same]
  exact conclude_congr i i.withoutComposites _

/-- Evaluating a line is executing its expansion without the composite words: the outcome is the
same, and so is the state once the value of the line is forgotten. A native word that a composite
word hides is never applied, neither on the line nor in its expansion. -/
theorem evalLine_eq_evalTokens_expansion (i : Interpreter) (line : String)
    (running : i.state.status = .running) (nonempty : line ≠ "")
    (fits : ∀ t ∈ i.split.split line, i.dictionary.nesting t ≤ i.maxDepth) :
    (∃! expanded, i.dictionary.Expansion (i.split.split line) expanded) ∧
    ∀ expanded, i.dictionary.Expansion (i.split.split line) expanded →
      (i.evalLine line).1 = (i.withoutComposites.evalTokens expanded).1 ∧
      (i.evalLine line).2.state = (i.withoutComposites.evalTokens expanded).2.clearValue.state ∧
      ∀ w : Native, (i.dictionary.find? w.name).isSome = true →
        (∀ t, i.dictionary.meaning t ≠ .native w) ∧
        ∀ t ∈ expanded, Dictionary.empty.meaning t ≠ .native w := by
  have expansion := Dictionary.expansion_of_nesting_le fits
  refine ⟨⟨_, expansion, fun _ other => other.unique expansion⟩, ?_⟩
  intro expanded expansion
  obtain ⟨outcome, state⟩ :=
    evalTokens_expansion (State.isShutdown_eq_false_iff.2 running) fits expansion
  rw [evalLine_of_ne_empty nonempty]
  refine ⟨outcome, ?_, ?_⟩
  · simp only [clearValue, state]
  · intro w hidden
    refine ⟨Dictionary.meaning_ne_native hidden, ?_⟩
    intro t member
    rw [Dictionary.meaning_empty (expansion.done t member)]
    exact Dictionary.meaning_ne_native hidden t

/-- A session in which `+` multiplies and words are nested. -/
def multiplying : Interpreter :=
  .new (.ofList [.define "+" "*", .define "quad" "double double", .define "double" "2 *"]) 2 .space

theorem evalLine_multiplying :
    (∀ t ∈ multiplying.split.split "3 4 + quad .",
      multiplying.dictionary.nesting t ≤ multiplying.maxDepth) ∧
    multiplying.dictionary.Expansion (multiplying.split.split "3 4 + quad .")
      ["3", "4", "*", "2", "*", "2", "*", "."] ∧
    (multiplying.evalLine "3 4 + quad .").1 =
      (multiplying.withoutComposites.evalTokens ["3", "4", "*", "2", "*", "2", "*", "."]).1 := by
  have fits : ∀ t ∈ multiplying.split.split "3 4 + quad .",
      multiplying.dictionary.nesting t ≤ multiplying.maxDepth := by decide
  have expansion : multiplying.dictionary.Expansion (multiplying.split.split "3 4 + quad .")
      ["3", "4", "*", "2", "*", "2", "*", "."] := ⟨⟨2, by decide⟩, by decide⟩
  have evaluated := evalLine_eq_evalTokens_expansion multiplying _ rfl (by decide) fits
  exact ⟨fits, expansion, (evaluated.2 _ expansion).1⟩

end Interpreter

end Forth
