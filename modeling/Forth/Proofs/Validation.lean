import Mathlib
import Forth.Proofs.Encoding
import Forth.Proofs.Invocation
import Forth.Proofs.Recursion

/-!
# Validation and execution

Validation looks at texts only: at how a name starts and ends, whether it reads as an integer, and
whether a body is blank. What it means to say is about execution. A name should expand the word that
is bound to it, whatever else the dictionary holds (`Config.Expands`), and a body should have a
token to be executed (`Config.HasToken`).

The two agree on every name and every body (`Config.isCallable_iff_expands`,
`Config.isBlankText_iff_not_hasToken`), and a configuration that is refused is refused for the first
word, in the order of the bytes of the names, for which one of them fails
(`Config.validate_agrees_with_execution`).
-/

namespace Forth

namespace Text

/-- A text has no words exactly if it is blank. -/
theorem words_eq_nil_iff (cs : List Char) : words cs = [] ↔ ∀ c ∈ cs, isBlank c = true := by
  induction cs with
  | nil => simp
  | cons c cs ih =>
    rw [List.forall_mem_cons]
    cases blank : isBlank c with
    | true => rw [words_cons_blank blank, ih, eq_self_iff_true, true_and]
    | false =>
      -- The character goes to the first piece, which is then not empty.
      obtain ⟨piece, pieces, cut⟩ := List.exists_cons_of_ne_nil (List.splitOnP_ne_nil isBlank cs)
      have full : words (c :: cs) ≠ [] := by
        rw [words, List.splitOnP_cons_eq_if_modifyHead, blank, if_neg Bool.false_ne_true, cut]
        simp
      simp [full]

theorem isBlankText_iff (s : String) : isBlankText s = true ↔ wordsOf s = [] := by
  rw [isBlankText, List.all_eq_true, wordsOf, List.map_eq_nil_iff, words_eq_nil_iff]

end Text

namespace Config

/-- Wherever a word is bound to the name, a token of that name expands it, if words may be nested
deeper. -/
def Expands (name : String) : Prop :=
  ∀ (d : Dictionary) (w : Composite), d.find? name = some w →
    ∀ (limit : Nat) (frames : Stack Frame) (s : State), frames.size < limit →
      Execution.dispatch d limit name frames s = .ok (frames.push (.start w)) s

/-- The body of the word has a token. -/
def HasToken (name body : String) : Prop := (Composite.define name body).tokens ≠ #[]

/-- The words whose names come before the given one can be invoked and do something. -/
def SoundBefore (c : Config) (name : String) : Prop :=
  ∀ earlier body, c.words[earlier]? = some body → Text.bytes earlier < Text.bytes name →
    Expands earlier ∧ HasToken earlier body

/-- What is wrong with a configuration first: the limit, and then, in the order of the bytes of
their names, the words, each of which is looked at for its name before its body. -/
inductive FirstViolation (c : Config) : Invalid → Prop where
  | zeroDepth (zero : c.settings.maxDepth = 0) : FirstViolation c .zeroDepth
  | uncallable {name body : String} (deep : 1 ≤ c.settings.maxDepth)
      (entry : c.words[name]? = some body) (before : c.SoundBefore name)
      (stuck : ¬ Expands name) : FirstViolation c (.uncallable name)
  | emptyBody {name body : String} (deep : 1 ≤ c.settings.maxDepth)
      (entry : c.words[name]? = some body) (before : c.SoundBefore name)
      (expands : Expands name) (empty : ¬ HasToken name body) : FirstViolation c (.emptyBody name)

variable {c : Config} {name body : String} {cause : Invalid}

/-! ## Names and bodies -/

/-- A name that is not looked up stands for an integer or for a fault of its own, whatever the
dictionary holds. -/
theorem meaning_of_not_isCallable (uncallable : isCallable name = false) (d : Dictionary) :
    (∃ n, d.meaning name = .number n) ∨ d.meaning name = .fault (.floatUnsupported name) ∨
      d.meaning name = .fault (.uncaughtToken name) := by
  rw [isCallable] at uncallable
  cases kind : Token.kind name with
  | word => simp [kind] at uncallable
  | unrecognized => exact .inr (.inr (by simp only [Dictionary.meaning, kind]))
  | number =>
    cases float : Token.isFloat name with
    | true => exact .inr (.inl (by simp only [Dictionary.meaning, kind, float, if_true]))
    | false =>
      cases read : Decimal.readInt64 name.toList with
      | error cause => simp [kind, float, read, Except.isOk, Except.toBool] at uncallable
      | ok n =>
        refine .inl ⟨n, ?_⟩
        simp only [Dictionary.meaning, kind, float, read, Bool.false_eq_true, if_false]

theorem meaning_ne_composite (uncallable : isCallable name = false) (d : Dictionary)
    (w : Composite) : d.meaning name ≠ .composite w := by
  intro stands
  obtain ⟨n, other⟩ | other | other := meaning_of_not_isCallable uncallable d
  · cases other.symm.trans stands
  · cases other.symm.trans stands
  · cases other.symm.trans stands

/-- No token expands a word of a name that is not looked up. -/
theorem name_ne_of_dispatch (uncallable : isCallable name = false) {d : Dictionary} {limit : Nat}
    {t : Token} {frames : Stack Frame} {s s' : State} {w : Composite}
    (h : Execution.dispatch d limit t frames s = .ok (frames.push (.start w)) s') :
    w.name ≠ name := by
  rintro rfl
  obtain same | ⟨v, stands, -, same⟩ := Execution.frames_of_dispatch h
  · have := congrArg Stack.size same
    rw [Stack.size_push] at this
    omega
  · have tops := congrArg Stack.toList same
    rw [Stack.toList_push, Stack.toList_push] at tops
    injection tops with tops
    injection tops with own
    obtain rfl := own
    rw [Dictionary.name_of_find? (Dictionary.find?_of_meaning stands)] at uncallable
    exact meaning_ne_composite uncallable d w stands

theorem isCallable_iff_expands (name : String) : isCallable name = true ↔ Expands name := by
  constructor
  · intro callable d w found limit frames s shallow
    rw [Execution.dispatch_of_composite (meaning_of_isCallable callable found),
      if_neg (Nat.not_le_of_lt shallow)]
  · intro expands
    by_contra uncallable
    rw [Bool.not_eq_true] at uncallable
    have found : (Dictionary.ofList [.define name ""]).find? name = some (.define name "") := by
      simp [Dictionary.find?_ofList]
    have expanded := expands _ _ found 1 .empty .initial Nat.zero_lt_one
    exact name_ne_of_dispatch uncallable expanded rfl

theorem isBlankText_iff_not_hasToken (name body : String) :
    Text.isBlankText body = true ↔ ¬ HasToken name body := by
  rw [HasToken, Text.isBlankText_iff, not_not, ← Array.toList_eq_nil_iff, Composite.toList_tokens]
  rfl

/-- The check of a word asks for what the word needs when it is executed. -/
theorem checkWord_eq_ok_iff_sound :
    checkWord name body = .ok () ↔ Expands name ∧ HasToken name body := by
  rw [checkWord_eq_ok_iff, isCallable_iff_expands, ← Bool.not_eq_true,
    isBlankText_iff_not_hasToken name body, not_not]

/-! ## The first violation -/

/-- A check of sorted elements fails for the least one that fails it. -/
theorem forM_eq_error_iff {α : Type} {r : α → α → Prop} {check : α → Except Invalid Unit}
    {xs : List α} (asymm : ∀ a b, r a b → ¬ r b a) (sorted : xs.Pairwise r) :
    xs.forM check = .error cause ↔
      ∃ x ∈ xs, check x = .error cause ∧ ∀ y ∈ xs, r y x → check y = .ok () := by
  induction xs with
  | nil => simp [pure, Except.pure]
  | cons x xs ih =>
    obtain ⟨least, sorted⟩ := List.pairwise_cons.1 sorted
    have goesOn : (x :: xs).forM check = check x >>= fun _ => xs.forM check := rfl
    cases first : check x with
    | error own =>
      rw [goesOn, first]
      constructor
      · rintro ⟨⟩
        refine ⟨x, List.mem_cons_self, first, ?_⟩
        intro y member less
        rcases List.mem_cons.1 member with rfl | later
        · exact absurd less (asymm _ _ less)
        · exact absurd less (asymm _ _ (least y later))
      · rintro ⟨y, member, failed, before⟩
        rcases List.mem_cons.1 member with rfl | later
        · rwa [first] at failed
        · rw [before x List.mem_cons_self (least y later)] at first
          cases first
    | ok _ =>
      have skipped : (x :: xs).forM check = xs.forM check := by rw [goesOn, first]; rfl
      rw [skipped, ih sorted]
      constructor
      · rintro ⟨y, member, failed, before⟩
        exact ⟨y, List.mem_cons_of_mem x member, failed,
          List.forall_mem_cons.2 ⟨fun _ => first, before⟩⟩
      · rintro ⟨y, member, failed, before⟩
        rcases List.mem_cons.1 member with rfl | later
        · rw [first] at failed
          cases failed
        · exact ⟨y, later, failed, (List.forall_mem_cons.1 before).2⟩

/-- The name of a word is looked at before its body. -/
theorem checkWord_eq_error_iff :
    checkWord name body = .error cause ↔
      (¬ Expands name ∧ cause = .uncallable name) ∨
        (Expands name ∧ ¬ HasToken name body ∧ cause = .emptyBody name) := by
  rw [← isCallable_iff_expands, ← isBlankText_iff_not_hasToken name body, checkWord]
  cases isCallable name <;> cases Text.isBlankText body <;> simp [eq_comm]

/-- The words are looked at in ascending order of name. -/
theorem forM_words_eq_error_iff (c : Config) :
    (c.words.toList.forM fun (name, body) => checkWord name body) = .error cause ↔
      ∃ name body, c.words[name]? = some body ∧ checkWord name body = .error cause ∧
        ∀ earlier other, c.words[earlier]? = some other → earlier < name →
          checkWord earlier other = .ok () := by
  have sorted : c.words.toList.Pairwise fun a b => a.1 < b.1 :=
    Std.ExtTreeMap.ordered_keys_toList.imp fun less => compare_lt_iff_lt.1 less
  rw [forM_eq_error_iff (fun a b => lt_asymm) sorted]
  simp only [Prod.exists, Prod.forall, Std.ExtTreeMap.mem_toList_iff_getElem?_eq_some]

theorem validate_of_ne_zero (h : c.settings.maxDepth ≠ 0) :
    c.validate = c.words.toList.forM fun (name, body) => checkWord name body := by
  rw [validate, if_neg h]

theorem validate_eq_error_iff (c : Config) (cause : Invalid) :
    c.validate = .error cause ↔ c.FirstViolation cause := by
  have before {name : String} : c.SoundBefore name ↔
      ∀ earlier other, c.words[earlier]? = some other → earlier < name →
        checkWord earlier other = .ok () := by
    simp only [SoundBefore, checkWord_eq_ok_iff_sound, Text.bytes_lt_bytes_iff]
  by_cases zero : c.settings.maxDepth = 0
  · rw [validate, if_pos zero]
    constructor
    · rintro ⟨⟩
      exact .zeroDepth zero
    · rintro (_ | deep | deep)
      · rfl
      all_goals omega
  · have deep : 1 ≤ c.settings.maxDepth := Nat.one_le_iff_ne_zero.2 zero
    rw [validate_of_ne_zero zero, forM_words_eq_error_iff]
    constructor
    · rintro ⟨name, body, entry, failed, first⟩
      rw [checkWord_eq_error_iff] at failed
      obtain ⟨stuck, rfl⟩ | ⟨expands, empty, rfl⟩ := failed
      · exact .uncallable deep entry (before.2 first) stuck
      · exact .emptyBody deep entry (before.2 first) expands empty
    · intro violation
      cases violation with
      | zeroDepth zero' => exact absurd zero' zero
      | @uncallable name body _ entry first stuck =>
        exact ⟨name, body, entry, checkWord_eq_error_iff.2 (.inl ⟨stuck, rfl⟩), before.1 first⟩
      | @emptyBody name body _ entry first expands empty =>
        exact ⟨name, body, entry, checkWord_eq_error_iff.2 (.inr ⟨expands, empty, rfl⟩),
          before.1 first⟩

/-- Validation judges texts as execution does. A configuration is accepted exactly if words may be
nested at all, the name of each of its words expands it in every dictionary that has such a word,
and each body has a token. One that is refused is refused for what is wrong with it first. A name
that is not looked up is the name of no word that any token expands: executing it pushes an integer
or fails with a fault of its own. -/
theorem validate_agrees_with_execution (c : Config) :
    (c.validate = .ok () ↔ 1 ≤ c.settings.maxDepth ∧
      ∀ name body, c.words[name]? = some body → Expands name ∧ HasToken name body) ∧
    (∀ cause, c.validate = .error cause ↔ c.FirstViolation cause) ∧
    ∀ name, isCallable name = false →
      (∀ (d : Dictionary) limit t frames w s s',
        Execution.dispatch d limit t frames s = .ok (frames.push (.start w)) s' →
        w.name ≠ name) ∧
      ∀ i : Interpreter,
        (∃ n, i.execute name = (.ok (), { i with state := i.state.push n })) ∨
          i.execute name = (.error (.floatUnsupported name), i) ∨
          i.execute name = (.error (.uncaughtToken name), i) := by
  refine ⟨?_, validate_eq_error_iff c, ?_⟩
  · rw [validate_eq_ok_iff, Nat.one_le_iff_ne_zero]
    simp only [← checkWord_eq_ok_iff, checkWord_eq_ok_iff_sound]
  · intro name uncallable
    refine ⟨?_, ?_⟩
    · intro d limit t frames w s s' expanded
      exact name_ne_of_dispatch uncallable expanded
    · intro i
      obtain ⟨n, stands⟩ | stands | stands := meaning_of_not_isCallable uncallable i.dictionary
      · exact .inl ⟨n, Interpreter.execute_of_number stands⟩
      · exact .inr (.inl (Interpreter.execute_of_fault stands))
      · exact .inr (.inr (Interpreter.execute_of_fault stands))

/-- Three words: the second in the order of names has a name that is an integer, and the third has a
blank body. -/
def doubtful : Config :=
  { default with words := .ofList [("ab", " "), ("12", "1"), ("+", "*")] }

/-- The name comes before the body, and no token ever expands a word of this name. -/
theorem refused_for_twelve :
    doubtful.validate = .error (.uncallable "12") ∧
    doubtful.FirstViolation (.uncallable "12") ∧
    isCallable "12" = false ∧
    ∀ (d : Dictionary) limit t frames w s s',
      Execution.dispatch d limit t frames s = .ok (frames.push (.start w)) s' → w.name ≠ "12" := by
  have refused : doubtful.validate = .error (.uncallable "12") := by cbv
  have uncallable : isCallable "12" = false := by decide
  obtain ⟨-, violations, stuck⟩ := validate_agrees_with_execution doubtful
  exact ⟨refused, (violations _).1 refused, uncallable, (stuck "12" uncallable).1⟩

end Config

end Forth
