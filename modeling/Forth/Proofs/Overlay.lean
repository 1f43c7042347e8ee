import Mathlib
import Forth.Proofs.Sections

/-!
# Documents laid over the defaults

A document whose keys are known and whose values have the wanted types (`Config.WellTyped`)
describes one configuration, which has what the document gives and the default where it gives
nothing (`Config.Overlays`). Every other document is refused.

What stands under the keys is all that counts, so the entries of the document, and those of its
tables, can be put in another order.
-/

namespace Forth

namespace Config

open Toml (Table Given entriesUnder)

/-! ## Documents -/

/-- What the document gives for the setting of this name. -/
def setting? (t : Table) (name : String) : Option Toml.Value :=
  (entriesUnder t "interpreter").lookup name

/-- What the document gives for the word of this name. -/
def word? (t : Table) (name : String) : Option Toml.Value :=
  (entriesUnder t "words").lookup name

/-- The settings are given by name, and not in order by an array. The split mode is not a table,
which would name it by its key, and the words are not a date or a time, which would count as a table
of one entry. -/
structure Regular (t : Table) : Prop where
  interpreter : ∀ v, t.lookup "interpreter" = some v → ∃ entries, v = .table entries
  split : ∀ entries, setting? t "split" ≠ some (.table entries)
  words : ∀ d, t.lookup "words" ≠ some (.datetime d)

/-- The keys of the document and of its settings are known, and every value has the type that is
wanted under its key. -/
structure WellTyped (t : Table) : Prop where
  sections : ∀ name v, t.lookup name = some v → name ∈ ["interpreter", "words"]
  settings : ∀ name v, setting? t name = some v → name ∈ ["max_depth", "split", "prompt"]
  maxDepth : ∀ v, setting? t "max_depth" = some v → ∃ n : Int64, v = .integer n ∧ 0 ≤ n
  split : ∀ v, setting? t "split" = some v → v = .string "space" ∨ v = .string "whitespace"
  prompt : ∀ v, setting? t "prompt" = some v → ∃ text, v = .string text
  words : ∀ v, t.lookup "words" = some v → ∃ entries, v = .table entries
  bodies : ∀ name v, word? t name = some v → ∃ body, v = .string body

/-- The configuration has each setting as the document gives it, and as it is by default where the
document does not, and it has the words of the document and no others. -/
structure Overlays (t : Table) (c : Config) : Prop where
  maxDepth : ∀ n, setting? t "max_depth" = some (.integer n) → (c.settings.maxDepth : Int) = n.toInt
  split : ∀ name, setting? t "split" = some (.string name) → c.settings.split.name = name
  prompt : ∀ text, setting? t "prompt" = some (.string text) → c.settings.prompt = text
  noMaxDepth : setting? t "max_depth" = none → c.settings.maxDepth = default.settings.maxDepth
  noSplit : setting? t "split" = none → c.settings.split = default.settings.split
  noPrompt : setting? t "prompt" = none → c.settings.prompt = default.settings.prompt
  words : ∀ name body, c.words[name]? = some body ↔ word? t name = some (.string body)

section

variable {v : Toml.Value} {given : Option Toml.Value} {t t' : Table} {c : Config} {s : Settings}
variable {ws : Std.ExtTreeMap String String}

/-! ## Values -/

theorem toInt_nonneg {n : Int64} (h : 0 ≤ n) : 0 ≤ n.toInt := by
  rwa [← Int64.toInt_zero, ← Int64.le_iff_toInt_le]

theorem depth_eq_ok_iff {limit : Nat} :
    Schema.depth v = .ok limit ↔ ∃ n : Int64, v = .integer n ∧ 0 ≤ n ∧ (limit : Int) = n.toInt := by
  cases v with
  | integer n =>
    rw [Schema.depth]
    split
    next negative =>
      constructor
      · exact fun made => by cases made
      · rintro ⟨n', same, nonnegative, -⟩
        obtain rfl := Toml.Value.integer.inj same
        exact absurd negative (Int64.not_lt.2 nonnegative)
    next nonnegative =>
      have sign : 0 ≤ n.toInt := toInt_nonneg (Int64.not_lt.1 nonnegative)
      constructor
      · intro made
        exact ⟨n, rfl, Int64.not_lt.1 nonnegative, by rw [← Except.ok.inj made]; omega⟩
      · rintro ⟨n', same, -, value⟩
        obtain rfl := Toml.Value.integer.inj same
        exact congrArg Except.ok (by omega)
  | _ => simp [Schema.depth, Schema.invalidType]

theorem mode_eq_ok_iff {mode : SplitMode} (notTable : ∀ entries, v ≠ .table entries) :
    Schema.mode v = .ok mode ↔ v = .string mode.name := by
  cases v with
  | string name =>
    show Schema.modeOfName name = .ok mode ↔ _
    rw [Toml.Value.string.injEq]
    constructor
    · intro made
      unfold Schema.modeOfName SplitMode.ofName? at made
      split at made
      next mode' found =>
        obtain rfl := Except.ok.inj made
        split at found <;> cases found <;> rfl
      · cases made
    · rintro rfl
      rw [Schema.modeOfName, SplitMode.ofName?_name]
  | table entries => exact absurd rfl (notTable entries)
  | _ => simp [Schema.mode]

theorem given_depth_iff {fallback limit : Nat} :
    Given Schema.depth fallback given limit ↔
      (∀ v, given = some v → ∃ n : Int64, v = .integer n ∧ 0 ≤ n) ∧
      (∀ n, given = some (.integer n) → (limit : Int) = n.toInt) ∧
      (given = none → limit = fallback) := by
  cases given with
  | none => simp [Given]
  | some v =>
    rw [Given, depth_eq_ok_iff]
    cases v <;> simp

theorem given_mode_iff {fallback mode : SplitMode}
    (notTable : ∀ entries, given ≠ some (.table entries)) :
    Given Schema.mode fallback given mode ↔
      (∀ v, given = some v → v = .string "space" ∨ v = .string "whitespace") ∧
      (∀ name, given = some (.string name) → mode.name = name) ∧
      (given = none → mode = fallback) := by
  cases given with
  | none => simp [Given]
  | some v =>
    rw [Given, mode_eq_ok_iff fun entries same => notTable entries (same ▸ rfl)]
    constructor
    · rintro rfl
      refine ⟨fun v same => ?_, fun name same => ?_, fun missing => by cases missing⟩
      · obtain rfl := Option.some.inj same
        cases mode with
        | space => exact .inl rfl
        | whitespace => exact .inr rfl
      · exact Toml.Value.string.inj (Option.some.inj same)
    · rintro ⟨named, same, -⟩
      obtain rfl | rfl := named v rfl
      · rw [same "space" rfl]
      · rw [same "whitespace" rfl]

theorem given_text_iff {fallback text : String} :
    Given Schema.text fallback given text ↔
      (∀ v, given = some v → ∃ text, v = .string text) ∧
      (∀ t, given = some (.string t) → text = t) ∧
      (given = none → text = fallback) := by
  cases given with
  | none => simp [Given]
  | some v =>
    rw [Given, text_eq_ok_iff]
    cases v <;> simp [eq_comm]

/-! ## What a document describes -/

theorem given_settings_iff (distinct : (Toml.Value.table t).Distinct) (regular : Regular t) :
    Given Schema.settings .default (t.lookup "interpreter") s ↔
      (∀ name v, setting? t name = some v → name ∈ ["max_depth", "split", "prompt"]) ∧
      Given Schema.depth Settings.default.maxDepth (setting? t "max_depth") s.maxDepth ∧
      Given Schema.mode Settings.default.split (setting? t "split") s.split ∧
      Given Schema.text Settings.default.prompt (setting? t "prompt") s.prompt := by
  have read : Given Schema.settings .default (t.lookup "interpreter") s ↔
      Schema.settings (.table (entriesUnder t "interpreter")) = .ok s := by
    rw [entriesUnder]
    cases found : t.lookup "interpreter" with
    | none =>
      exact ⟨fun same => congrArg Except.ok same.symm, fun made => (Except.ok.inj made).symm⟩
    | some v =>
      obtain ⟨entries, rfl⟩ := regular.interpreter v found
      rfl
  exact read.trans (settings_table_eq_ok_iff (Toml.apart_entriesUnder distinct "interpreter"))

theorem given_words_iff (distinct : (Toml.Value.table t).Distinct) (regular : Regular t) :
    Given Schema.words {} (t.lookup "words") ws ↔
      (∀ v, t.lookup "words" = some v → ∃ entries, v = .table entries) ∧
      (∀ name v, word? t name = some v → ∃ body, v = .string body) ∧
      ∀ name body, ws[name]? = some body ↔ word? t name = some (.string body) := by
  have read : Given Schema.words {} (t.lookup "words") ws ↔
      (∀ v, t.lookup "words" = some v → ∃ entries, v = .table entries) ∧
        Schema.words (.table (entriesUnder t "words")) = .ok ws := by
    rw [entriesUnder]
    cases found : t.lookup "words" with
    | none =>
      constructor
      · exact fun same => ⟨fun v made => absurd made (by simp), congrArg Except.ok same.symm⟩
      · exact fun made => (Except.ok.inj made.2).symm
    | some v =>
      cases v with
      | table entries =>
        exact ⟨fun made => ⟨fun v same => ⟨entries, (Option.some.inj same).symm⟩, made⟩, And.right⟩
      | datetime d => exact absurd found (regular.words d)
      | _ => simp [Given, Schema.words, Schema.invalidType]
  exact read.trans
    (and_congr_right fun _ => words_table_eq_ok_iff (Toml.apart_entriesUnder distinct "words"))

/-- A document describes the configuration that it overlays, if it is well typed, and otherwise
none. -/
theorem ofTable_eq_ok_iff_overlays (distinct : (Toml.Value.table t).Distinct)
    (regular : Regular t) : ofTable t = .ok c ↔ WellTyped t ∧ Overlays t c := by
  rw [ofTable_eq_ok_iff (Toml.Value.distinct_table_iff.1 distinct).1,
    given_settings_iff distinct regular, given_words_iff distinct regular, given_depth_iff,
    given_mode_iff regular.split, given_text_iff]
  constructor
  · rintro ⟨sections, ⟨settings, ⟨depth, givenDepth, noDepth⟩, ⟨mode, givenMode, noMode⟩, text,
      givenText, noText⟩, words, bodies, same⟩
    exact ⟨⟨sections, settings, depth, mode, text, words, bodies⟩,
      givenDepth, givenMode, givenText, noDepth, noMode, noText, same⟩
  · rintro ⟨typed, laid⟩
    exact ⟨typed.sections,
      ⟨typed.settings, ⟨typed.maxDepth, laid.maxDepth, laid.noMaxDepth⟩,
        ⟨typed.split, laid.split, laid.noSplit⟩, typed.prompt, laid.prompt, laid.noPrompt⟩,
      typed.words, typed.bodies, laid.words⟩

theorem exists_given {α : Type} {reads : Toml.Value → Except Schema.Fault α} (fallback : α)
    (readable : ∀ v, given = some v → ∃ a, reads v = .ok a) :
    ∃ a, Given reads fallback given a := by
  cases given with
  | none => exact ⟨fallback, rfl⟩
  | some v => exact readable v rfl

theorem WellTyped.exists_overlays (typed : WellTyped t)
    (distinct : (Toml.Value.table t).Distinct) (regular : Regular t) : ∃ c, Overlays t c := by
  have readDepth (v : Toml.Value) (found : setting? t "max_depth" = some v) :
      ∃ limit, Schema.depth v = .ok limit := by
    obtain ⟨n, rfl, nonnegative⟩ := typed.maxDepth v found
    have value : (n.toInt.toNat : Int) = n.toInt := Int.toNat_of_nonneg (toInt_nonneg nonnegative)
    exact ⟨n.toInt.toNat, depth_eq_ok_iff.2 ⟨n, rfl, nonnegative, value⟩⟩
  have readMode (v : Toml.Value) (found : setting? t "split" = some v) :
      ∃ mode, Schema.mode v = .ok mode := by
    obtain rfl | rfl := typed.split v found
    · exact ⟨.space, rfl⟩
    · exact ⟨.whitespace, rfl⟩
  have readText (v : Toml.Value) (found : setting? t "prompt" = some v) :
      ∃ text, Schema.text v = .ok text := by
    obtain ⟨text, rfl⟩ := typed.prompt v found
    exact ⟨text, rfl⟩
  have apart := Toml.apart_entriesUnder distinct "words"
  have bodies : ∀ e ∈ entriesUnder t "words", ∃ body, e.2 = .string body := fun e member =>
    typed.bodies e.1 e.2 ((Toml.lookup_eq_some_iff_mem apart).2 member)
  obtain ⟨limit, depth⟩ := exists_given Settings.default.maxDepth readDepth
  obtain ⟨mode, split⟩ := exists_given Settings.default.split readMode
  obtain ⟨text, prompt⟩ := exists_given Settings.default.prompt readText
  obtain ⟨ws, words⟩ := exists_words bodies {}
  obtain ⟨-, givenDepth, noDepth⟩ := given_depth_iff.1 depth
  obtain ⟨-, givenMode, noMode⟩ := (given_mode_iff regular.split).1 split
  obtain ⟨-, givenText, noText⟩ := given_text_iff.1 prompt
  exact ⟨⟨⟨limit, mode, text⟩, ws⟩, givenDepth, givenMode, givenText, noDepth, noMode, noText,
    ((words_table_eq_ok_iff apart).1 words).2⟩

/-- What overlays a well-typed document is one configuration. -/
theorem WellTyped.existsUnique_overlays (typed : WellTyped t)
    (distinct : (Toml.Value.table t).Distinct) (regular : Regular t) : ∃! c, Overlays t c := by
  obtain ⟨c, laid⟩ := typed.exists_overlays distinct regular
  refine ⟨c, laid, fun c' laid' => ?_⟩
  have described := (ofTable_eq_ok_iff_overlays distinct regular).2 ⟨typed, laid⟩
  have described' := (ofTable_eq_ok_iff_overlays distinct regular).2 ⟨typed, laid'⟩
  exact Except.ok.inj (described'.symm.trans described)

/-! ## Documents in another order -/

section

variable (same : Toml.Corresponding t t') (distinct : (Toml.Value.table t).Distinct)

include same distinct

theorem Regular.of_corresponding (regular : Regular t) : Regular t' where
  interpreter := same.forall_lookup (fun ⟨_, own⟩ moved => (own ▸ moved).exists_table)
    regular.interpreter
  split entries found := by
    obtain ⟨v, found', moved⟩ := (same.entriesUnder distinct).symm.exists_of_lookup found
    obtain ⟨entries', rfl⟩ := moved.exists_table
    exact regular.split entries' found'
  words d found := regular.words d (same.symm.lookup_eq_some trivial found)

theorem WellTyped.of_corresponding (typed : WellTyped t) : WellTyped t' where
  sections name := same.forall_lookup (fun own _ => own) (typed.sections name)
  settings name :=
    (same.entriesUnder distinct).forall_lookup (fun own _ => own) (typed.settings name)
  maxDepth := (same.entriesUnder distinct).forall_lookup_of_isScalar
    (fun ⟨_, own, _⟩ => own ▸ trivial) typed.maxDepth
  split := (same.entriesUnder distinct).forall_lookup_of_isScalar
    (fun own => by obtain rfl | rfl := own <;> trivial) typed.split
  prompt := (same.entriesUnder distinct).forall_lookup_of_isScalar
    (fun ⟨_, own⟩ => own ▸ trivial) typed.prompt
  words := same.forall_lookup (fun ⟨_, own⟩ moved => (own ▸ moved).exists_table) typed.words
  bodies name := (same.entriesUnder distinct).forall_lookup_of_isScalar
    (fun ⟨_, own⟩ => own ▸ trivial) (typed.bodies name)

theorem Overlays.of_corresponding (laid : Overlays t c) : Overlays t' c := by
  have settings :
      Toml.Corresponding (entriesUnder t' "interpreter") (entriesUnder t "interpreter") :=
    (same.entriesUnder distinct).symm
  have words : Toml.Corresponding (entriesUnder t "words") (entriesUnder t' "words") :=
    same.entriesUnder distinct
  constructor
  case maxDepth => exact fun n found => laid.maxDepth n (settings.lookup_eq_some trivial found)
  case split => exact fun name found => laid.split name (settings.lookup_eq_some trivial found)
  case prompt => exact fun text found => laid.prompt text (settings.lookup_eq_some trivial found)
  case noMaxDepth => exact fun missing => laid.noMaxDepth (settings.lookup_eq_none missing)
  case noSplit => exact fun missing => laid.noSplit (settings.lookup_eq_none missing)
  case noPrompt => exact fun missing => laid.noPrompt (settings.lookup_eq_none missing)
  case words =>
    intro name body
    exact (laid.words name body).trans
      ⟨words.lookup_eq_some trivial, words.symm.lookup_eq_some trivial⟩

end

theorem ofText_eq_ok_iff {text : String} (parsed : Toml.parse? text = some t) :
    ofText text = .ok c ↔ ofTable t = .ok c ∧ c.validate = .ok () := by
  rw [ofText]
  simp only [parsed]
  cases ofTable t with
  | error fault =>
    constructor
    · intro h
      dsimp only at h
      split at h <;> cases h
    · intro h
      cases h.1
  | ok described =>
    show described.validated = .ok c ↔ _
    rw [validated_eq_ok_iff, Except.ok.injEq]
    constructor
    · rintro ⟨valid, rfl⟩
      exact ⟨rfl, valid⟩
    · rintro ⟨rfl, valid⟩
      exact ⟨valid, rfl⟩

/-- The text of a document is a configuration exactly if the document is well typed and what
overlays it is valid, and it is that configuration. So is every text of a document with the same
entries in another order. -/
theorem ofText_overlays {text : String} (parsed : Toml.parse? text = some t) (regular : Regular t) :
    (WellTyped t → ∃! c, Overlays t c) ∧
    (∀ c, ofText text = .ok c ↔ WellTyped t ∧ Overlays t c ∧ c.validate = .ok ()) ∧
    ∀ text' t', Toml.parse? text' = some t' → (Toml.Value.table t).Reordered (.table t') →
      ∀ c, ofText text' = .ok c ↔ ofText text = .ok c := by
  have distinct := Toml.distinct_of_parse? parsed
  refine ⟨fun typed => typed.existsUnique_overlays distinct regular, fun c => ?_,
    fun text' t' parsed' reordered c => ?_⟩
  · rw [ofText_eq_ok_iff parsed, ofTable_eq_ok_iff_overlays distinct regular, and_assoc]
  · have same : Toml.Corresponding t t' := reordered.entries distinct
    have distinct' := Toml.distinct_of_parse? parsed'
    have regular' := regular.of_corresponding same distinct
    rw [ofText_eq_ok_iff parsed, ofText_eq_ok_iff parsed',
      ofTable_eq_ok_iff_overlays distinct regular, ofTable_eq_ok_iff_overlays distinct' regular']
    have typed : WellTyped t' ↔ WellTyped t :=
      ⟨.of_corresponding same.symm distinct', .of_corresponding same distinct⟩
    have laid : Overlays t' c ↔ Overlays t c :=
      ⟨.of_corresponding same.symm distinct', .of_corresponding same distinct⟩
    rw [typed, laid]

end

def doublingSettings : Table := [("max_depth", .integer 7), ("prompt", .string "> ")]

def doublingWords : Toml.Value := .table [("a", .string "2 *")]

def doubling : Config := ⟨⟨7, .space, "> "⟩, .ofList [("a", "2 *")]⟩

def doublingText : String :=
  "[interpreter]\nmax_depth = 7\nprompt = \"> \"\n[words]\na = \"2 *\"\n"

/-- The sections are put in the other order, and so are the settings in theirs. -/
theorem ofText_overlays_doubling :
    Toml.parse? doublingText =
      some [("interpreter", .table doublingSettings), ("words", doublingWords)] ∧
    Regular [("interpreter", .table doublingSettings), ("words", doublingWords)] ∧
    Overlays [("interpreter", .table doublingSettings), ("words", doublingWords)] doubling ∧
    ofText "[words]\na = \"2 *\"\n[interpreter]\nprompt = \"> \"\nmax_depth = 7\n" =
      .ok doubling := by
  have parsed : Toml.parse? doublingText =
      some [("interpreter", .table doublingSettings), ("words", doublingWords)] := by cbv
  have loaded : ofText doublingText = .ok doubling := by cbv
  have regular : Regular [("interpreter", .table doublingSettings), ("words", doublingWords)] := by
    constructor
    case interpreter =>
      intro v found
      exact ⟨doublingSettings, (Option.some.inj found).symm⟩
    case split =>
      intro entries found
      change none = some _ at found
      injection found
    case words =>
      intro d found
      injection found with found
      injection found
  have turned : (Toml.Value.table
      [("interpreter", .table doublingSettings), ("words", doublingWords)]).Reordered
      (.table [("words", doublingWords), ("interpreter", .table doublingSettings.reverse)]) :=
    .trans
      (@Toml.Value.Reordered.inEntry [] [("words", doublingWords)] "interpreter" _ _
        (.perm doublingSettings.reverse_perm.symm))
      (.perm (.swap _ _ _))
  obtain ⟨-, described, ordered⟩ := ofText_overlays parsed regular
  exact ⟨parsed, regular, ((described _).1 loaded).2.1, (ordered _ _ (by cbv) turned _).2 loaded⟩

end Config

end Forth
