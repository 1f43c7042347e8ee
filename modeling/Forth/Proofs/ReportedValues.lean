import Mathlib
import Forth.Proofs.Joining
import Forth.Proofs.Transcript

/-!
# The values that lines report

A value is set by `.` and `.s`, wherever they are met, and stays until another one is set. So the
value at the end of an execution is the last one that its log reports, or the one that was there
before (`Execution.value_after_replay`).

Every line forgets its value, whether it completes, fails or ends the session, and this is all that
keeps one line apart from the next. A line of a session that has only evaluated lines reports
nothing but what was set on that line, and all that is left of the lines before it are the integer
stack and the status (`Interpreter.exists_evalLines`).
-/

namespace Forth

namespace Execution

/-- The values that tokens report as they act one by one, up to the first fault. -/
def reports (d : Dictionary) : List Token → State → List Value
  | [], _ => []
  | t :: ts, s =>
    (reportOf? d t s).toList ++
      match effect d t s with
      | .ok _ s' => reports d ts s'
      | .error _ _ => []

section

variable {d : Dictionary} {t : Token} {ts log : List Token} {s s' : State} {fault : Fault}

theorem reports_of_ok (h : effect d t s = .ok () s') :
    reports d (t :: ts) s = (reportOf? d t s).toList ++ reports d ts s' := by
  rw [reports, h]

theorem reports_of_error (h : effect d t s = .error fault s') :
    reports d (t :: ts) s = (reportOf? d t s).toList := by
  rw [reports, h, List.append_nil]

/-- Tokens that act one by one leave the value that they reported last, or the one that was there
before, and they never touch the floats. -/
theorem value_after_replay (d : Dictionary) (ts : List Token) (s : State) :
    (Action.after (replay d ts) s).value = (reports d ts s).getLast?.or s.value ∧
      (Action.after (replay d ts) s).floats = s.floats := by
  induction ts generalizing s with
  | nil => exact ⟨rfl, rfl⟩
  | cons t ts ih =>
    obtain ⟨ints, left⟩ := after_effect d t s
    have own : (reportOf? d t s).toList.getLast? = reportOf? d t s := by
      cases reportOf? d t s <;> rfl
    rw [replay_cons]
    cases first : effect d t s with
    | error fault s' =>
      rw [Action.after_of_error first] at left
      rw [Action.after_of_error (Action.bind_of_error first), reports_of_error first, left]
      exact ⟨by rw [own], rfl⟩
    | ok _ s' =>
      rw [Action.after_of_ok first] at left
      obtain ⟨value, floats⟩ := ih s'
      rw [Action.after, Action.bind_of_ok first, ← Action.after, reports_of_ok first]
      constructor
      · rw [value, left, List.getLast?_append, Option.or_assoc, own]
      · rw [floats, left]

/-- All that an execution did, the tokens of its log did one by one. -/
theorem Account.after_eq {act : Action Unit} (h : Account d s log (act s)) :
    Action.after act s = Action.after (replay d log) s := by
  rw [Action.after]
  generalize act s = result at h
  cases h with
  | @shutdown before last s' others ends did =>
    have ended : effect d last s' = .ok () { s' with status := .shutdown } := by
      rw [effect_of_native ends]
      rfl
    rw [Action.after, replay_append did, replay_singleton, ended]
  | finished others did => rw [Action.after_of_ok did]
  | failed others did => rw [did]

end

end Execution

namespace Interpreter

variable {i j : Interpreter} {line : String} {lines : List String} {v : Option Value}

/-- The values that the words of a line report in turn, at whatever depth they are met. -/
def reports (i : Interpreter) (line : String) : List Value :=
  Execution.reports i.dictionary (i.dispatched (i.tokensOf line)) i.state

/-- A fresh session that has evaluated the lines of a history, and done nothing else. -/
def afterLines (d : Dictionary) (limit : Nat) (mode : SplitMode) (history : List String) :
    Interpreter :=
  ((new d limit mode).evalLines history).2

/-- The value of a completed line is the last that was reported on it, and if there was none, the
one that was there before. A line without characters has no value. -/
theorem value_of_completed (completed : (i.evalLine line).1 = .completed v) :
    v = if line.isEmpty then none else (i.reports line).getLast?.or i.state.value := by
  by_cases empty : line = ""
  · subst empty
    injection completed with same
    exact same.symm
  have full : line.isEmpty = false := by simpa using empty
  rw [full]
  cases status : i.state.status with
  | running =>
    rw [evalLine_eq_finish status empty] at completed
    obtain ⟨s, did, -, rfl⟩ := exists_of_finish_eq_completed completed
    have left := (account_line status line).after_eq
    rw [Action.after_of_ok did] at left
    rw [left]
    exact (Execution.value_after_replay _ _ _).1
  | shutdown =>
    cases tokens : i.tokensOf line with
    | nil =>
      rw [evalLine_of_no_tokens tokens, full] at completed
      injection completed with same
      rw [reports, tokens]
      exact same.symm
    | cons t ts =>
      rw [evalLine_of_shutdown status tokens] at completed
      injection completed

/-- All that a line does to a session is done to the integer stack and the status, apart from
forgetting the value. -/
theorem exists_evalLine (i : Interpreter) (line : String) :
    ∃ ints status,
      (i.evalLine line).2 = { i with state := ⟨ints, i.state.floats, none, status⟩ } := by
  have forget (s : State) (kept : s.floats = i.state.floats) :
      ({ i with state := s } : Interpreter).clearValue =
        { i with state := ⟨s.ints, i.state.floats, none, s.status⟩ } := by rw [← kept]; rfl
  cases status : i.state.status with
  | running =>
    rw [(evalLine_of_running status line).2, (account_line status line).after_eq]
    exact ⟨_, _, forget _ (Execution.value_after_replay _ _ _).2⟩
  | shutdown =>
    cases tokens : i.tokensOf line with
    | nil =>
      rw [evalLine_of_no_tokens tokens]
      exact ⟨_, _, forget i.state rfl⟩
    | cons t ts =>
      have account := Execution.account_execute i.dictionary i.maxDepth t i.state
      rw [evalLine_of_shutdown status tokens, execute_snd, account.after_eq]
      exact ⟨_, _, forget _ (Execution.value_after_replay _ _ _).2⟩

/-- Nor do any number of lines, if there was no value to begin with. -/
theorem exists_evalLines (fresh : i.state.value = none) (lines : List String) :
    ∃ ints status,
      (i.evalLines lines).2 = { i with state := ⟨ints, i.state.floats, none, status⟩ } := by
  induction lines generalizing i with
  | nil =>
    refine ⟨i.state.ints, i.state.status, ?_⟩
    rw [← fresh]
    rfl
  | cons line lines ih =>
    obtain ⟨ints, status, first⟩ := exists_evalLine i line
    rw [evalLines_cons, first]
    exact ih rfl

/-- The lines before it leave to a session an integer stack and a status, and nothing else. -/
theorem exists_afterLines (d : Dictionary) (limit : Nat) (mode : SplitMode)
    (history : List String) :
    ∃ ints status, afterLines d limit mode history = ⟨d, limit, mode, ints, .empty, none, status⟩ :=
  exists_evalLines (i := new d limit mode) rfl history

/-- A line reports what was set on that line and nothing from before. Whatever a session is and
however the line ends, its value is forgotten; and in a session that has evaluated lines only, the
value of a completed line is the one that `.` or `.s` set last in the course of it, or none if
neither was applied. So lines leave no trace but the integer stack and the status: where these are
the same, all lines that follow have the same outcomes and lead to the same sessions, however the
lines before them ended. -/
theorem line_reports_own_value :
    (∀ (i : Interpreter) (line : String), (i.evalLine line).2.state.value = none) ∧
    ∀ (d : Dictionary) (limit : Nat) (mode : SplitMode) (history : List String),
      (∀ line v, ((afterLines d limit mode history).evalLine line).1 = .completed v →
        v = ((afterLines d limit mode history).reports line).getLast?) ∧
      ∀ other : List String,
        (afterLines d limit mode other).state.ints =
          (afterLines d limit mode history).state.ints →
        (afterLines d limit mode other).state.status =
          (afterLines d limit mode history).state.status →
        ∀ more : List String, (afterLines d limit mode other).evalLines more =
          (afterLines d limit mode history).evalLines more := by
  refine ⟨fun i line => rfl, ?_⟩
  intro d limit mode history
  obtain ⟨ints, status, left⟩ := exists_afterLines d limit mode history
  rw [left]
  constructor
  · intro line v completed
    have value := value_of_completed completed
    by_cases empty : line = ""
    · subst empty
      exact value
    · have full : line.isEmpty = false := by simpa using empty
      rw [full] at value
      exact value.trans Option.or_none
  · intro other sameInts sameStatus more
    obtain ⟨ints', status', left'⟩ := exists_afterLines d limit mode other
    rw [left'] at sameInts sameStatus ⊢
    obtain rfl : ints' = ints := sameInts
    obtain rfl : status' = status := sameStatus
    rfl

/-- The words of a session in which one of them reports twice. -/
def telling : Dictionary := .ofList [.define "sh" ". .s"]

/-- The 7 that was set before the fault is reported no more, and the session goes on as if it were
new. -/
theorem telling_after_fault :
    ((new telling 8 .space).evalLines ["7 . no"]).1 = [.failed (.unknownWord "no")] ∧
    ((afterLines telling 8 .space ["7 . no"]).evalLine "1 2 sh").1 =
      .completed (some (.text "<1>  Top-->1")) ∧
    ((afterLines telling 8 .space ["7 . no"]).reports "1 2 sh").getLast? =
      some (.text "<1>  Top-->1") ∧
    ∀ more, (afterLines telling 8 .space ["7 . no"]).evalLines more =
      (new telling 8 .space).evalLines more := by
  obtain ⟨own, same⟩ := line_reports_own_value.2 telling 8 .space ["7 . no"]
  have failed : ((new telling 8 .space).evalLines ["7 . no"]).1 =
      [.failed (.unknownWord "no")] := by cbv
  have told : ((afterLines telling 8 .space ["7 . no"]).evalLine "1 2 sh").1 =
      .completed (some (.text "<1>  Top-->1")) := by cbv
  have ints : (afterLines telling 8 .space []).state.ints =
      (afterLines telling 8 .space ["7 . no"]).state.ints := by cbv
  have status : (afterLines telling 8 .space []).state.status =
      (afterLines telling 8 .space ["7 . no"]).state.status := by cbv
  refine ⟨failed, told, (own _ _ told).symm, ?_⟩
  intro more
  exact (same [] ints status more).symm

end Interpreter

end Forth
