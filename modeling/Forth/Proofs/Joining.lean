import Forth.Proofs.Lockstep

/-!
# Joined lines

Two lines can be written as one, with a gap between them that the split mode cuts at. The tokens of
the joined line are then those of its parts (`SplitMode.split_of_joins`), and they do in order what
the parts do one after the other (`Interpreter.lineAction_of_joins`).

Between two lines the value of the first is forgotten, and between the two parts of one line it is
not. That makes no other difference than to the value: an execution that starts with a value goes
in step with one that starts without, and ends with the same value, or with the one that it started
with if it reported none (`Comparison.lawful_carrying`).
-/

namespace Forth

namespace SplitMode

/-- Two lines may be joined by this gap: in space mode by one space, if there is something on either
side of it, and in whitespace mode by any blanks. -/
def Joins (mode : SplitMode) (a gap b : String) : Prop :=
  match mode with
  | .space => gap = " " ∧ a ≠ "" ∧ b ≠ ""
  | .whitespace => gap ≠ "" ∧ ∀ c ∈ gap.toList, Text.isBlank c = true

theorem Joins.ne_empty {mode : SplitMode} {a gap b : String} (joins : mode.Joins a gap b) :
    gap ≠ "" := by
  cases mode with
  | space => simp [joins.1]
  | whitespace => exact joins.1

/-- The tokens of a joined line are those of its parts. -/
theorem split_of_joins {mode : SplitMode} {a gap b : String} (joins : mode.Joins a gap b) :
    mode.split (a ++ gap ++ b) = mode.split a ++ mode.split b := by
  cases mode with
  | space =>
    obtain ⟨rfl, -, -⟩ := joins
    have cut : (a.toList ++ ' ' :: b.toList).splitOn ' ' =
        a.toList.splitOn ' ' ++ b.toList.splitOn ' ' := by
      simp only [List.splitOn_eq_splitOnP]
      exact List.splitOnP_append_cons _ _ (by simp)
    have whole : (a ++ " " ++ b).toList = a.toList ++ ' ' :: b.toList := by simp
    rw [split, split, split, whole, cut, List.map_append]
  | whitespace =>
    obtain ⟨nonempty, blank⟩ := joins
    have full : gap.toList ≠ [] := fun empty => nonempty (String.toList_eq_nil_iff.1 empty)
    rw [split, split, split, Text.wordsOf, String.toList_append, String.toList_append,
      Text.words_append_blanks full blank, List.map_append, Text.wordsOf, Text.wordsOf]

end SplitMode

/-- The outcome with the given value, where it has none of its own. -/
def Outcome.orValue (v : Option Value) : Outcome → Outcome
  | completed none => completed v
  | outcome => outcome

namespace Comparison

/-- The second execution started with a value. -/
def carrying (v : Option Value) : Comparison where
  Related s s' := s' = { s with value := s.value.or v }
  Excused _ := False

theorem lawful_carrying (v : Option Value) : (carrying v).Lawful where
  isShutdown := by
    rintro s _ rfl
    rfl
  size := by
    rintro s _ rfl
    exact .inl rfl
  pop := by
    rintro s _ rfl
    cases items : s.ints.toList with
    | nil =>
      have carried := Action.pop_of_nil (s := { s with value := s.value.or v }) items
      rw [Action.pop_of_nil items, carried]
      exact .error _ rfl
    | cons n rest =>
      have carried := Action.pop_of_cons (s := { s with value := s.value.or v }) items
      rw [Action.pop_of_cons items, carried]
      exact .ok n rfl
  push n := by
    rintro s _ rfl
    exact .ok () rfl
  report n := by
    rintro s _ rfl
    exact .ok () rfl
  summary := by
    rintro s _ rfl
    exact .ok () rfl
  shutdown := by
    rintro s _ rfl
    exact .ok () rfl

theorem SameEnd.orValue {v : Option Value} {s s' : State} {outcome outcome' : Outcome}
    (same : SameEnd s s' outcome outcome') (related : (carrying v).Related s s') :
    outcome' = outcome.orValue v := by
  obtain rfl := related
  cases same with
  | completed => cases s.value <;> rfl
  | failed fault => rfl
  | shutdown => rfl

end Comparison

namespace Interpreter

variable {i : Interpreter} {a gap b : String}

theorem tokensOf_of_joins (joins : i.split.Joins a gap b) :
    i.tokensOf (a ++ gap ++ b) = i.tokensOf a ++ i.tokensOf b := by
  have nonempty : a ++ gap ++ b ≠ "" := by simp [joins.ne_empty]
  rw [tokensOf_of_ne_empty nonempty, SplitMode.split_of_joins joins]
  cases mode : i.split with
  | space =>
    rw [mode] at joins
    rw [tokensOf_of_ne_empty joins.2.1, tokensOf_of_ne_empty joins.2.2, mode]
  | whitespace =>
    -- Only here may a part be empty, and then it is cut into no tokens either.
    have whole (line : String) : i.tokensOf line = SplitMode.whitespace.split line := by
      by_cases empty : line = ""
      · subst empty
        simp [tokensOf, SplitMode.split, Text.wordsOf]
      · rw [tokensOf_of_ne_empty empty, mode]
    rw [whole, whole]

theorem lineAction_of_joins (joins : i.split.Joins a gap b) :
    i.lineAction (a ++ gap ++ b) = (i.lineAction a >>= fun _ => i.lineAction b) := by
  funext s
  rw [lineAction, tokensOf_of_joins joins]
  exact Execution.inOrder_append

/-- The tokens of a line that start with a value come to what they come to without, apart from that
value. -/
theorem finish_lineAction (running : i.state.status = .running) (line : String) :
    i.finish (i.lineAction line i.state) =
      ((i.clearValue.evalLine line).1.orValue i.state.value, (i.clearValue.evalLine line).2) := by
  by_cases empty : line = ""
  · subst empty
    have idle : i.lineAction "" i.state = .ok () i.state := rfl
    rw [idle, finish_ok, State.isShutdown_eq_false_iff.2 running]
    rfl
  · have started : (Comparison.carrying i.state.value).Related i.clearValue.state i.state := rfl
    rw [← evalLine_eq_finish running empty]
    obtain ⟨_, excused, -⟩ | ⟨s, s', outcome, outcome', related, same, without, carried⟩ :=
      (Comparison.lawful_carrying i.state.value).evalLine i.clearValue i rfl rfl (Nat.le_refl _)
        (.inl rfl) running started empty
    · exact excused.elim
    · rw [without, carried, same.orValue related, related]
      rfl

/-- Where the first part ends the line, the second does nothing. -/
theorem finish_bind_of_ended {act act' : Action Unit} {s : State}
    (idle : ∀ s : State, s.isShutdown = true → act' s = .ok () s)
    (ended : ∀ v, (i.finish (act s)).1 ≠ .completed v) :
    i.finish ((act >>= fun _ => act') s) = i.finish (act s) := by
  cases did : act s with
  | error fault s' => rw [Action.bind_of_error did]
  | ok _ s' =>
    rw [Action.bind_of_ok did]
    cases shut : s'.isShutdown with
    | true => rw [idle s' shut]
    | false =>
      rw [did, finish_ok, shut] at ended
      exact absurd rfl (ended s'.value)

theorem exists_of_finish_eq_completed {result : EStateM.Result Fault State Unit} {v : Option Value}
    (completed : (i.finish result).1 = .completed v) :
    ∃ s, result = .ok () s ∧ s.isShutdown = false ∧ s.value = v := by
  cases result with
  | ok _ s =>
    rw [finish_ok] at completed
    cases shut : s.isShutdown with
    | true => simp [shut] at completed
    | false => exact ⟨s, rfl, shut, by simpa [shut] using completed⟩
  | error fault s =>
    rw [finish_error] at completed
    cases shut : s.isShutdown <;> simp [shut] at completed

/-- Joining two lines is evaluating one after the other. If the first fails or ends the session,
nothing comes of the second. Otherwise the second decides how the joined line ends, and the value
that the first reported is kept if the second reports none. -/
theorem evalLine_of_joins (i : Interpreter) (a gap b : String) (running : i.state.status = .running)
    (fresh : i.state.value = none) (joins : i.split.Joins a gap b) :
    ((∃ fault, (i.evalLine a).1 = .failed fault) ∨ (i.evalLine a).1 = .shutdown →
      i.evalLine (a ++ gap ++ b) = i.evalLine a) ∧
    ∀ v, (i.evalLine a).1 = .completed v →
      i.evalLine (a ++ gap ++ b) =
        (((i.evalLine a).2.evalLine b).1.orValue v, ((i.evalLine a).2.evalLine b).2) := by
  have first := evalLine_eq_finish_of_fresh running fresh a
  have whole : i.evalLine (a ++ gap ++ b) =
      i.finish ((i.lineAction a >>= fun _ => i.lineAction b) i.state) := by
    rw [evalLine_eq_finish_of_fresh running fresh, lineAction_of_joins joins]
  constructor
  · intro ended
    rw [whole, first]
    refine finish_bind_of_ended (fun s shut => Execution.inOrder_of_shutdown shut) ?_
    intro v completed
    rw [first, completed] at ended
    obtain ⟨fault, ended⟩ | ended := ended <;> cases ended
  · intro v completed
    rw [first] at completed
    obtain ⟨s, did, goesOn, rfl⟩ := exists_of_finish_eq_completed completed
    have second := finish_lineAction (i := { i with state := s })
      (State.isShutdown_eq_false_iff.1 goesOn) b
    rw [whole, Action.bind_of_ok did, first, did]
    exact second

/-- A session without composite words. -/
def plain (mode : SplitMode) : Interpreter := .new .empty 128 mode

/-- The value of the first part is kept where the second has none, and nothing comes of a second
part after `bye`, not even of the empty token that its doubled space makes. -/
theorem evalLine_of_joins_one :
    ((plain .whitespace).evalLine "1 .").1 = .completed (some (.integer 1)) ∧
    ((plain .whitespace).evalLine ("1 ." ++ " \t" ++ "2")).1 = .completed (some (.integer 1)) ∧
    ((plain .space).evalLine "1 bye").1 = .shutdown ∧
    (plain .space).evalLine ("1 bye" ++ " " ++ " 2") = (plain .space).evalLine "1 bye" := by
  have first : ((plain .whitespace).evalLine "1 .").1 = .completed (some (.integer 1)) := by cbv
  have second : (((plain .whitespace).evalLine "1 .").2.evalLine "2").1 = .completed none := by cbv
  have left : ((plain .space).evalLine "1 bye").1 = .shutdown := by cbv
  have blanks : SplitMode.whitespace.Joins "1 ." " \t" "2" := by
    refine ⟨by decide, ?_⟩
    simp [Text.isBlank, Text.blankRanges]
  have space : SplitMode.space.Joins "1 bye" " " " 2" := ⟨rfl, by decide, by decide⟩
  have joined := (evalLine_of_joins (plain .whitespace) _ _ _ rfl rfl blanks).2 _ first
  rw [second] at joined
  refine ⟨first, by rw [joined]; rfl, left, ?_⟩
  exact (evalLine_of_joins (plain .space) _ _ _ rfl rfl space).1 (.inr left)

end Interpreter

end Forth
