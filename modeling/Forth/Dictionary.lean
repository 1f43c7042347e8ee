import Std.Data.ExtTreeMap
import Forth.Native
import Forth.Text.Blank

/-!
# The dictionary

A name is bound to a composite word, to a native word, or to nothing. Composite words are
kept in a table in ascending order of name and hide native words of the same name. The order
of the table shows in nothing but the listing.

`Dictionary.meaning` says what a token stands for. It depends on the dictionary alone, so
the tokens that expand to other tokens are known before anything runs.
-/

namespace Forth

/-- The body of a composite word: a text, and the tokens it is cut into. -/
structure Body where
  text : String
  tokens : Array Token
  tokens_eq : tokens = (Text.wordsOf text).toArray
  deriving DecidableEq

def Body.ofText (text : String) : Body := ⟨text, (Text.wordsOf text).toArray, rfl⟩

/-- A word that stands for a sequence of tokens. -/
structure Composite where
  name : String
  body : Body
  deriving DecidableEq

namespace Composite

/-- The word of this name whose body is written so. -/
def define (name text : String) : Composite := ⟨name, .ofText text⟩

def tokens (w : Composite) : Array Token := w.body.tokens

@[simp] theorem name_define (name text : String) : (define name text).name = name := rfl

@[simp] theorem toList_tokens (w : Composite) : w.tokens.toList = Text.wordsOf w.body.text := by
  simp [tokens, w.body.tokens_eq]

end Composite

/-- What a name is bound to. -/
inductive Binding where
  | composite (w : Composite)
  | native (w : Native)
  deriving DecidableEq

/-- What a token stands for. -/
inductive Meaning where
  /-- An integer, to be pushed. -/
  | number (n : Int64)
  | native (w : Native)
  /-- A word to be expanded. -/
  | composite (w : Composite)
  | fault (f : Fault)
  deriving DecidableEq

/-- The bodies of the composite words, by name. -/
structure Dictionary where
  bodies : Std.ExtTreeMap String Body
  deriving DecidableEq

namespace Dictionary

def empty : Dictionary := ⟨{}⟩

instance : Inhabited Dictionary := ⟨empty⟩

/-- The composite word of this name. -/
def find? (d : Dictionary) (name : String) : Option Composite :=
  d.bodies[name]?.map fun body => ⟨name, body⟩

/-- Binds a composite word, in place of any other of its name. -/
def insert (d : Dictionary) (w : Composite) : Dictionary :=
  ⟨d.bodies.insert w.name w.body⟩

/-- Binds a composite word, and answers the one whose place it takes. -/
def define (d : Dictionary) (w : Composite) : Option Composite × Dictionary :=
  (d.find? w.name, d.insert w)

def ofList (ws : List Composite) : Dictionary :=
  ws.foldl insert empty

/-- The composite words in ascending order of name, which is the order that the table keeps. A table
without an order comes to the same list when its words are sorted by name: no two words have one
name, so they can be sorted in one way only (`mergeSort_eq_composites`). -/
def composites (d : Dictionary) : List Composite :=
  d.bodies.toList.map fun (name, body) => ⟨name, body⟩

def resolve? (d : Dictionary) (name : String) : Option Binding :=
  match d.find? name with
  | some w => some (.composite w)
  | none => (Native.ofName? name).map .native

def contains (d : Dictionary) (name : String) : Bool :=
  d.bodies.contains name || (Native.ofName? name).isSome

/-- What a token stands for when it is taken as a word. -/
def wordMeaning (d : Dictionary) (t : Token) : Meaning :=
  match d.resolve? t with
  | some (.composite w) => .composite w
  | some (.native w) => .native w
  | none => .fault (.unknownWord t)

/-- What a token stands for. Both numbers and words may start with a minus sign: a number
that cannot be read is the word of that name, if there is one. -/
def meaning (d : Dictionary) (t : Token) : Meaning :=
  match t.kind with
  | .unrecognized => .fault (.uncaughtToken t)
  | .word => d.wordMeaning t
  | .number =>
    if t.isFloat then .fault (.floatUnsupported t)
    else match Decimal.readInt64 t.toList with
      | .ok n => .number n
      | .error cause => if d.contains t then d.wordMeaning t else .fault (.unreadable t cause)

@[simp] theorem find?_empty (name : String) : empty.find? name = none := by
  simp [find?, empty]

theorem find?_insert (d : Dictionary) (w : Composite) (name : String) :
    (d.insert w).find? name = if w.name = name then some w else d.find? name := by
  by_cases h : w.name = name
  · subst h
    simp [find?, insert]
  · simp [find?, insert, Std.ExtTreeMap.getElem?_insert, h]

/-- Of the words that are bound under a name in turn, the last one is found. -/
theorem find?_foldl_insert (d : Dictionary) (ws : List Composite) (name : String) :
    (ws.foldl insert d).find? name =
      (ws.reverse.find? fun w => w.name == name).or (d.find? name) := by
  induction ws generalizing d with
  | nil => rfl
  | cons w ws ih =>
    rw [List.foldl_cons, ih, find?_insert, List.reverse_cons, List.find?_append, Option.or_assoc]
    by_cases own : w.name = name <;> simp [own]

theorem find?_ofList (ws : List Composite) (name : String) :
    (ofList ws).find? name = ws.reverse.find? fun w => w.name == name := by
  rw [ofList, find?_foldl_insert, find?_empty, Option.or_none]

/-- A word is found under its own name. -/
theorem name_of_find? {d : Dictionary} {name : String} {w : Composite}
    (h : d.find? name = some w) : w.name = name := by
  obtain ⟨body, -, rfl⟩ := Option.map_eq_some_iff.1 h
  rfl

/-- Dictionaries that find the same words are equal. -/
@[ext] theorem ext {d e : Dictionary} (h : ∀ name, d.find? name = e.find? name) : d = e := by
  obtain ⟨s⟩ := d
  obtain ⟨t⟩ := e
  congr 1
  refine Std.ExtTreeMap.ext_getElem? fun name => ?_
  have same : s[name]?.map (Composite.mk name) = t[name]?.map (Composite.mk name) := h name
  exact (Option.map_inj_right fun _ _ equal => (Composite.mk.inj equal).2).1 same

theorem contains_iff (d : Dictionary) (name : String) :
    d.contains name = true ↔ (d.resolve? name).isSome = true := by
  unfold contains resolve? find?
  cases h : d.bodies[name]? with
  | none => simp [Std.ExtTreeMap.contains_eq_isSome_getElem?, h]
  | some body => simp [Std.ExtTreeMap.contains_eq_isSome_getElem?, h]

/-- The listing holds what can be found. -/
theorem mem_composites {d : Dictionary} {name : String} {w : Composite}
    (h : d.find? name = some w) : w ∈ d.composites := by
  obtain ⟨body, hb, rfl⟩ := Option.map_eq_some_iff.1 h
  exact List.mem_map.2 ⟨(name, body), Std.ExtTreeMap.mem_toList_iff_getElem?_eq_some.2 hb, rfl⟩

/-- A word is a composite word if there is one of its name, else a native one, else unknown. -/
theorem cases_of_wordMeaning (d : Dictionary) (t : Token) :
    (∃ w, d.find? t = some w ∧ d.wordMeaning t = .composite w) ∨
      (∃ w, d.find? t = none ∧ Native.ofName? t = some w ∧ d.wordMeaning t = .native w) ∨
      (d.find? t = none ∧ Native.ofName? t = none ∧ d.wordMeaning t = .fault (.unknownWord t)) := by
  rw [wordMeaning, resolve?]
  cases found : d.find? t with
  | some w => exact .inl ⟨w, rfl, rfl⟩
  | none =>
    cases native : Native.ofName? t with
    | some w => exact .inr (.inl ⟨w, rfl, rfl, rfl⟩)
    | none => exact .inr (.inr ⟨rfl, rfl, rfl⟩)

/-- A token that is not taken as a word is a number, or has a fault of its own. -/
theorem cases_of_meaning (d : Dictionary) (t : Token) :
    d.meaning t = d.wordMeaning t ∨ (∃ n, d.meaning t = .number n) ∨
      ∃ f, d.meaning t = .fault f ∧
        (f = .uncaughtToken t ∨ f = .floatUnsupported t ∨ ∃ cause, f = .unreadable t cause) := by
  cases kind : t.kind with
  | unrecognized => exact .inr (.inr ⟨.uncaughtToken t, by rw [meaning, kind], .inl rfl⟩)
  | word => exact .inl (by rw [meaning, kind])
  | number =>
    by_cases float : t.isFloat = true
    · refine .inr (.inr ⟨.floatUnsupported t, ?_, .inr (.inl rfl)⟩)
      simp only [meaning, kind, if_pos float]
    cases read : Decimal.readInt64 t.toList with
    | ok n => exact .inr (.inl ⟨n, by simp only [meaning, kind, if_neg float, read]⟩)
    | error cause =>
      by_cases known : d.contains t = true
      · exact .inl (by simp only [meaning, kind, if_neg float, read, if_pos known])
      · refine .inr (.inr ⟨.unreadable t cause, ?_, .inr (.inr ⟨cause, rfl⟩)⟩)
        simp only [meaning, kind, if_neg float, read, if_neg known]

/-- A token stands for no composite word but the one of its own name. -/
theorem find?_of_meaning {d : Dictionary} {t : Token} {w : Composite}
    (h : d.meaning t = .composite w) : d.find? t = some w := by
  obtain word | ⟨n, number⟩ | ⟨f, failed, -⟩ := d.cases_of_meaning t
  · rw [word] at h
    obtain ⟨v, found, stands⟩ | ⟨v, -, -, stands⟩ | ⟨-, -, stands⟩ := d.cases_of_wordMeaning t
    · injection stands.symm.trans h with same
      rw [found, same]
    · cases stands.symm.trans h
    · cases stands.symm.trans h
  · cases number.symm.trans h
  · cases failed.symm.trans h

/-- A token stands for no native word but the one that its own name is bound to. -/
theorem resolve?_of_meaning_native {d : Dictionary} {t : Token} {w : Native}
    (h : d.meaning t = .native w) : w.name = t ∧ d.resolve? t = some (.native w) := by
  obtain word | ⟨n, number⟩ | ⟨f, failed, -⟩ := d.cases_of_meaning t
  · rw [word] at h
    obtain ⟨v, -, stands⟩ | ⟨v, visible, own, stands⟩ | ⟨-, -, stands⟩ := d.cases_of_wordMeaning t
    · cases stands.symm.trans h
    · injection stands.symm.trans h with same
      refine ⟨same ▸ Native.name_of_ofName? own, ?_⟩
      rw [resolve?, visible, own, same]
      rfl
    · cases stands.symm.trans h
  · cases number.symm.trans h
  · cases failed.symm.trans h

/-- It stands for it only if no composite word hides it. -/
theorem find?_of_meaning_native {d : Dictionary} {t : Token} {w : Native}
    (h : d.meaning t = .native w) : d.find? w.name = none := by
  obtain ⟨rfl, bound⟩ := resolve?_of_meaning_native h
  rw [resolve?] at bound
  cases found : d.find? w.name with
  | none => rfl
  | some v =>
    rw [found] at bound
    injection bound with bound
    injection bound

/-- A native word that a composite word hides is meant by no token that is met. -/
theorem meaning_ne_native {d : Dictionary} {w : Native}
    (hidden : (d.find? w.name).isSome = true) (t : Token) : d.meaning t ≠ .native w := by
  intro stands
  rw [find?_of_meaning_native stands] at hidden
  cases hidden

/-- What a token stands for depends on nothing but what it is bound to. -/
theorem meaning_congr {d e : Dictionary} {t : Token} (h : d.resolve? t = e.resolve? t) :
    d.meaning t = e.meaning t := by
  have word : d.wordMeaning t = e.wordMeaning t := by rw [wordMeaning, wordMeaning, h]
  have known : d.contains t = e.contains t := by
    rw [Bool.eq_iff_iff, contains_iff, contains_iff, h]
  rw [meaning, meaning, word, known]

theorem resolve?_of_wordMeaning_fault {d : Dictionary} {t : Token} {f : Fault}
    (h : d.wordMeaning t = .fault f) : d.resolve? t = none ∧ f = .unknownWord t := by
  rw [wordMeaning] at h
  cases bound : d.resolve? t with
  | none =>
    rw [bound] at h
    injection h with h
    exact ⟨rfl, h.symm⟩
  | some binding =>
    rw [bound] at h
    cases binding <;> injection h

/-- A token stands for a fault if it starts nothing, if it is a word that is bound to nothing, or if
it is a number that is kept for floating point or can neither be read nor taken as a word. -/
theorem cases_of_fault {d : Dictionary} {t : Token} {f : Fault} (h : d.meaning t = .fault f) :
    (t.kind = .unrecognized ∧ f = .uncaughtToken t) ∨
      (t.kind = .word ∧ d.resolve? t = none ∧ f = .unknownWord t) ∨
      (t.kind = .number ∧ t.isFloat = true ∧ f = .floatUnsupported t) ∨
      (t.kind = .number ∧ t.isFloat = false ∧ d.resolve? t = none ∧
        ∃ cause, Decimal.readInt64 t.toList = .error cause ∧ f = .unreadable t cause) := by
  cases kind : t.kind with
  | unrecognized =>
    simp only [meaning, kind, Meaning.fault.injEq] at h
    exact .inl ⟨rfl, h.symm⟩
  | word =>
    simp only [meaning, kind] at h
    obtain ⟨unbound, same⟩ := resolve?_of_wordMeaning_fault h
    exact .inr (.inl ⟨rfl, unbound, same⟩)
  | number =>
    cases float : t.isFloat with
    | true =>
      simp only [meaning, kind, float, if_true, Meaning.fault.injEq] at h
      exact .inr (.inr (.inl ⟨rfl, rfl, h.symm⟩))
    | false =>
      cases read : Decimal.readInt64 t.toList with
      | ok n => simp [meaning, kind, float, read] at h
      | error cause =>
        cases known : d.contains t with
        | true =>
          -- A token that is bound to something has a meaning as a word.
          simp only [meaning, kind, float, read, known, Bool.false_eq_true, if_false, if_true] at h
          rw [contains_iff, (resolve?_of_wordMeaning_fault h).1] at known
          cases known
        | false =>
          simp only [meaning, kind, float, read, known, Bool.false_eq_true, if_false,
            Meaning.fault.injEq] at h
          have unbound : d.resolve? t = none := by
            rw [← Option.not_isSome_iff_eq_none, ← contains_iff, known]
            exact Bool.false_ne_true
          exact .inr (.inr (.inr ⟨rfl, rfl, unbound, cause, rfl, h.symm⟩))

/-- The faults that a token stands for are about the token itself. -/
theorem fault_of_meaning {d : Dictionary} {t : Token} {f : Fault} (h : d.meaning t = .fault f) :
    f = .unknownWord t ∨ f = .uncaughtToken t ∨ f = .floatUnsupported t ∨
      ∃ cause, f = .unreadable t cause := by
  obtain ⟨-, same⟩ | ⟨-, -, same⟩ | ⟨-, -, same⟩ | ⟨-, -, -, cause, -, same⟩ := cases_of_fault h
  · exact .inr (.inl same)
  · exact .inl same
  · exact .inr (.inr (.inl same))
  · exact .inr (.inr (.inr ⟨cause, same⟩))

end Dictionary

end Forth
