import Mathlib
import Forth.Proofs.Reordering
import Forth.Proofs.WrittenSettings

/-!
# Tables read part by part

The sections of a document, the settings and the words are each read by a fold over the entries of a
table, in which an entry sets the part of the state that its key names (`Toml.Parts`). If no key is
there twice, what comes out of such a fold can be told part by part, whatever the order of the
entries (`Toml.Parts.foldlM_eq_ok_iff`): a part is what is read from the value under its key, and
stays where there is none.
-/

namespace Forth

theorem map_eq_ok_iff {ε α β : Type} {x : Except ε α} {f : α → β} {b : β} :
    x.map f = .ok b ↔ ∃ a, x = .ok a ∧ f a = b := by
  cases x <;> simp [Except.map]

namespace Toml

variable {α β δ ε σ : Type}

/-- What is read from the given value, or the fallback where none is given. -/
def Given (reads : Value → Except ε α) (fallback : α) : Option Value → α → Prop
  | none, a => a = fallback
  | some v, a => reads v = .ok a

theorem given_map_iff {reads : Value → Except ε α} {f : α → β} (injective : Function.Injective f)
    {fallback a : α} {given : Option Value} :
    Given (fun v => ((reads v).map f).map some) (some (f fallback)) given (some (f a)) ↔
      Given reads fallback given a := by
  cases given with
  | none =>
    show some (f a) = some (f fallback) ↔ a = fallback
    rw [Option.some_inj, injective.eq_iff]
  | some v =>
    show ((reads v).map f).map some = .ok (some (f a)) ↔ reads v = .ok a
    simp [map_eq_ok_iff, injective.eq_iff]

/-- An entry of a table sets the part of the state that its key names, and the parts are the whole
state. -/
structure Parts (step : σ → String × Value → Except ε σ) (reads : String → Value → Except ε δ)
    (put : σ → String → δ → σ) (part : σ → String → Option δ) : Prop where
  step_eq : ∀ s key v, step s (key, v) = (reads key v).map (put s key)
  part_put : ∀ {key v d}, reads key v = .ok d → ∀ s, part (put s key d) key = some d
  part_put_of_ne : ∀ {key v d}, reads key v = .ok d →
    ∀ {other}, other ≠ key → ∀ s, part (put s key d) other = part s other
  ext : ∀ {s s'}, (∀ key, part s key = part s' key) → s = s'

/-- Such entries, no two of which have one key, set each part to what its key leads to. -/
theorem Parts.foldlM_eq_ok_iff {step : σ → String × Value → Except ε σ}
    {reads : String → Value → Except ε δ} {put : σ → String → δ → σ} {part : σ → String → Option δ}
    (parts : Parts step reads put part) {t : Table} (apart : Apart t) {s s' : σ} :
    t.foldlM step s = .ok s' ↔
      ∀ key, Given (fun v => (reads key v).map some) (part s key) (t.lookup key) (part s' key) := by
  induction t generalizing s with
  | nil =>
    constructor
    · intro h
      obtain rfl := Except.ok.inj h
      exact fun key => rfl
    · intro same
      exact congrArg Except.ok (parts.ext fun key => (same key).symm)
  | cons entry rest ih =>
    obtain ⟨key, v⟩ := entry
    obtain ⟨other, apart⟩ := List.nodup_cons.1 apart
    have missing : rest.lookup key = none := lookup_eq_none_iff_not_mem.2 other
    have own : ((key, v) :: rest).lookup key = some v := List.lookup_cons_self
    have others {k : String} (different : k ≠ key) :
        ((key, v) :: rest).lookup k = rest.lookup k := by
      rw [List.lookup_cons, beq_false_of_ne different]
    rw [foldlM_cons_eq_ok_iff, parts.step_eq]
    cases read : reads key v with
    | error cause =>
      constructor
      · rintro ⟨next, made, -⟩
        cases made
      · intro all
        have unread := all key
        rw [own] at unread
        simp [Given, read, Except.map] at unread
    | ok d =>
      constructor
      · rintro ⟨next, made, ran⟩ k
        obtain rfl := Except.ok.inj made
        have laid := (ih apart).1 ran k
        by_cases same : k = key
        · subst same
          rw [missing, Given, parts.part_put read] at laid
          rw [own, Given, read, laid]
          rfl
        · rwa [others same, ← parts.part_put_of_ne read same]
      · intro all
        refine ⟨put s key d, rfl, (ih apart).2 fun k => ?_⟩
        have laid := all k
        by_cases same : k = key
        · subst same
          rw [own, Given, read] at laid
          rw [missing, Given, parts.part_put read]
          exact (Except.ok.inj laid).symm
        · rwa [others same, ← parts.part_put_of_ne read same] at laid

/-- If only these keys can be read, no others may be there. -/
theorem Parts.foldlM_eq_ok_iff_of_known {step : σ → String × Value → Except ε σ}
    {reads : String → Value → Except ε δ} {put : σ → String → δ → σ} {part : σ → String → Option δ}
    (parts : Parts step reads put part) {known : List String}
    (key_mem : ∀ {key v d}, reads key v = .ok d → key ∈ known)
    (part_eq_none : ∀ s, ∀ key ∉ known, part s key = none)
    {t : Table} (apart : Apart t) {s s' : σ} :
    t.foldlM step s = .ok s' ↔
      (∀ key v, t.lookup key = some v → key ∈ known) ∧
      ∀ key ∈ known,
        Given (fun v => (reads key v).map some) (part s key) (t.lookup key) (part s' key) := by
  rw [parts.foldlM_eq_ok_iff apart]
  constructor
  · intro laid
    refine ⟨fun key v found => ?_, fun key _ => laid key⟩
    obtain ⟨d, read, -⟩ := map_eq_ok_iff.1 (found ▸ laid key)
    exact key_mem read
  · rintro ⟨only, laid⟩ key
    by_cases member : key ∈ known
    · exact laid key member
    · have missing : t.lookup key = none := Option.eq_none_iff_forall_ne_some.2 fun v found =>
        member (only key v found)
      rw [missing, Given, part_eq_none s key member, part_eq_none s' key member]

end Toml

namespace Config

open Toml (Table Apart Given entriesUnder)

/-! ## Settings -/

/-- The setting of this name, as a change to it. -/
def Change.part (s : Settings) : String → Option Change
  | "max_depth" => some (.maxDepth s.maxDepth)
  | "split" => some (.split s.split)
  | "prompt" => some (.prompt s.prompt)
  | _ => none

/-- The change that an entry of the settings makes. -/
def Change.ofEntry (name : String) (v : Toml.Value) : Except Schema.Fault Change :=
  match name with
  | "max_depth" => (Schema.depth v).map .maxDepth
  | "split" => (Schema.mode v).map .split
  | "prompt" => (Schema.text v).map .prompt
  | _ => .error (.unknownField name ["max_depth", "split", "prompt"])

section

variable {change : Change} {name other : String} {v : Toml.Value} {s : Settings}

theorem Change.part_settings (change : Change) (s : Settings) :
    part (change.settings s) change.key = some change := by
  cases change <;> rfl

theorem Change.part_settings_of_ne (h : other ≠ change.key) (s : Settings) :
    part (change.settings s) other = part s other := by
  unfold part
  split <;> cases change <;> first | rfl | exact absurd rfl h

theorem Change.key_of_ofEntry (h : Change.ofEntry name v = .ok change) : change.key = name := by
  unfold Change.ofEntry at h
  split at h
  · obtain ⟨limit, -, rfl⟩ := map_eq_ok_iff.1 h
    rfl
  · obtain ⟨mode, -, rfl⟩ := map_eq_ok_iff.1 h
    rfl
  · obtain ⟨text, -, rfl⟩ := map_eq_ok_iff.1 h
    rfl
  · cases h

theorem setField_eq (s : Settings) (name : String) (v : Toml.Value) :
    Schema.setField s name v = (Change.ofEntry name v).map fun change => change.settings s := by
  unfold Schema.setField Change.ofEntry
  split
  · cases Schema.depth v <;> rfl
  · cases Schema.mode v <;> rfl
  · cases Schema.text v <;> rfl
  · simp_all [Except.map]

end

theorem parts_settings :
    Toml.Parts (fun s (name, v) => Schema.setField s name v) Change.ofEntry
      (fun s _ change => change.settings s) Change.part where
  step_eq := setField_eq
  part_put read s := Change.key_of_ofEntry read ▸ Change.part_settings _ s
  part_put_of_ne read _ different s :=
    Change.part_settings_of_ne (Change.key_of_ofEntry read ▸ different) s
  ext {s s'} same := by
    obtain ⟨maxDepth, split, prompt⟩ := s
    have depth := same "max_depth"
    have mode := same "split"
    have text := same "prompt"
    simp_all [Change.part]

/-- The settings that a table describes, setting by setting. -/
theorem settings_table_eq_ok_iff {entries : Table} (apart : Apart entries) {s : Settings} :
    Schema.settings (.table entries) = .ok s ↔
      (∀ key v, entries.lookup key = some v → key ∈ ["max_depth", "split", "prompt"]) ∧
      Given Schema.depth Settings.default.maxDepth (entries.lookup "max_depth") s.maxDepth ∧
      Given Schema.mode Settings.default.split (entries.lookup "split") s.split ∧
      Given Schema.text Settings.default.prompt (entries.lookup "prompt") s.prompt := by
  have key_mem {key : String} {v : Toml.Value} {change : Change}
      (read : Change.ofEntry key v = .ok change) : key ∈ ["max_depth", "split", "prompt"] := by
    rw [← Change.key_of_ofEntry read]
    cases change <;> simp [Change.key]
  have part_eq_none (s : Settings) (key : String) (other : key ∉ ["max_depth", "split", "prompt"]) :
      Change.part s key = none := by
    unfold Change.part
    split
    · exact absurd (by simp) other
    · exact absurd (by simp) other
    · exact absurd (by simp) other
    · rfl
  rw [Schema.settings, parts_settings.foldlM_eq_ok_iff_of_known key_mem part_eq_none apart,
    List.forall_mem_cons, List.forall_mem_cons, List.forall_mem_singleton]
  exact and_congr_right fun _ => and_congr (Toml.given_map_iff fun _ _ => Change.maxDepth.inj)
    (and_congr (Toml.given_map_iff fun _ _ => Change.split.inj)
      (Toml.given_map_iff fun _ _ => Change.prompt.inj))

/-! ## Words -/

theorem parts_words :
    Toml.Parts (fun (ws : Std.ExtTreeMap String String) (name, v) => do
      return ws.insert name (← Schema.text v)) (fun _ v => Schema.text v)
      (fun ws name body => ws.insert name body) (fun ws name => ws[name]?) where
  step_eq s name v := by
    show (do return s.insert name (← Schema.text v)) = _
    cases Schema.text v <;> rfl
  part_put _ ws := by simp
  part_put_of_ne _ _ different ws := by
    rw [Std.ExtTreeMap.getElem?_insert, if_neg (by simpa using different.symm)]
  ext same := Std.ExtTreeMap.ext_getElem? same

theorem text_eq_ok_iff {v : Toml.Value} {text : String} :
    Schema.text v = .ok text ↔ v = .string text := by
  cases v <;> simp [Schema.text, Schema.invalidType]

/-- The words that a table describes, name by name. -/
theorem words_table_eq_ok_iff {entries : Table} (apart : Apart entries)
    {ws : Std.ExtTreeMap String String} :
    Schema.words (.table entries) = .ok ws ↔
      (∀ name v, entries.lookup name = some v → ∃ body, v = .string body) ∧
      ∀ name body, ws[name]? = some body ↔ entries.lookup name = some (.string body) := by
  rw [Schema.words, parts_words.foldlM_eq_ok_iff apart]
  constructor
  · intro laid
    refine ⟨fun name v found => ?_, fun name body => ?_⟩
    · obtain ⟨body, read, -⟩ := map_eq_ok_iff.1 (found ▸ laid name)
      exact ⟨body, text_eq_ok_iff.1 read⟩
    · have own := laid name
      cases found : entries.lookup name with
      | none =>
        rw [found, Given] at own
        simp [own]
      | some v =>
        rw [found, Given, map_eq_ok_iff] at own
        obtain ⟨text, read, same⟩ := own
        rw [← same, text_eq_ok_iff.1 read]
        simp
  · rintro ⟨bodies, words⟩ name
    cases found : entries.lookup name with
    | none =>
      have absent : ws[name]? = none := Option.eq_none_iff_forall_ne_some.2 fun body own => by
        simp [(words name body).1 own] at found
      rw [Given, absent]
      exact Std.ExtTreeMap.getElem?_empty.symm
    | some v =>
      obtain ⟨body, rfl⟩ := bodies name v found
      exact map_eq_ok_iff.2 ⟨body, rfl, ((words name body).2 found).symm⟩

/-- A table of strings gives words. -/
theorem exists_words {entries : Table} (bodies : ∀ e ∈ entries, ∃ body, e.2 = .string body)
    (ws : Std.ExtTreeMap String String) :
    ∃ ws', entries.foldlM (fun ws (name, v) => do return ws.insert name (← Schema.text v)) ws =
      .ok ws' := by
  induction entries generalizing ws with
  | nil => exact ⟨ws, rfl⟩
  | cons entry rest ih =>
    obtain ⟨name, v⟩ := entry
    obtain ⟨⟨body, rfl⟩, rest⟩ := List.forall_mem_cons.1 bodies
    exact ih rest (ws.insert name body)

/-! ## Sections -/

/-- What a section of a document describes. -/
inductive Section where
  | settings (s : Settings)
  | words (ws : Std.ExtTreeMap String String)

namespace Section

/-- The section of this name. -/
def part (c : Config) : String → Option Section
  | "interpreter" => some (.settings c.settings)
  | "words" => some (.words c.words)
  | _ => none

/-- The section that an entry of a document describes. -/
def ofEntry (name : String) (v : Toml.Value) : Except Schema.Fault Section :=
  match name with
  | "interpreter" => (Schema.settings v).map .settings
  | "words" => (Schema.words v).map .words
  | _ => .error (.unknownField name ["interpreter", "words"])

/-- The configuration with this section. -/
def config (section' : Section) (c : Config) : Config :=
  match section' with
  | settings s => { c with settings := s }
  | words ws => { c with words := ws }

end Section

theorem setSection_eq (c : Config) (name : String) (v : Toml.Value) :
    c.setSection name v = (Section.ofEntry name v).map fun made => made.config c := by
  unfold setSection Section.ofEntry
  split
  · cases Schema.settings v <;> rfl
  · cases Schema.words v <;> rfl
  · simp_all [Except.map]

theorem Section.cases_of_ofEntry {name : String} {v : Toml.Value} {made : Section}
    (h : Section.ofEntry name v = .ok made) :
    (name = "interpreter" ∧ ∃ s, Schema.settings v = .ok s ∧ made = .settings s) ∨
      name = "words" ∧ ∃ ws, Schema.words v = .ok ws ∧ made = .words ws := by
  unfold Section.ofEntry at h
  split at h
  · obtain ⟨s, read, rfl⟩ := map_eq_ok_iff.1 h
    exact .inl ⟨rfl, s, read, rfl⟩
  · obtain ⟨ws, read, rfl⟩ := map_eq_ok_iff.1 h
    exact .inr ⟨rfl, ws, read, rfl⟩
  · cases h

theorem parts_sections :
    Toml.Parts (fun (c : Config) (name, v) => c.setSection name v) Section.ofEntry
      (fun c _ made => made.config c) Section.part where
  step_eq := setSection_eq
  part_put {key v made} read c := by
    obtain ⟨rfl, s, -, rfl⟩ | ⟨rfl, ws, -, rfl⟩ := Section.cases_of_ofEntry read <;> rfl
  part_put_of_ne {key v made} read other different c := by
    unfold Section.part
    split
    · obtain ⟨rfl, -⟩ | ⟨-, ws, -, rfl⟩ := Section.cases_of_ofEntry read
      · exact absurd rfl different
      · rfl
    · obtain ⟨-, s, -, rfl⟩ | ⟨rfl, -⟩ := Section.cases_of_ofEntry read
      · rfl
      · exact absurd rfl different
    · rfl
  ext {c c'} same := by
    obtain ⟨settings, words⟩ := c
    have first := same "interpreter"
    have second := same "words"
    simp_all [Section.part]

/-- The configuration that a document describes, section by section. -/
theorem ofTable_eq_ok_iff {t : Table} (apart : Apart t) {c : Config} :
    ofTable t = .ok c ↔
      (∀ key v, t.lookup key = some v → key ∈ ["interpreter", "words"]) ∧
      Given Schema.settings .default (t.lookup "interpreter") c.settings ∧
      Given Schema.words {} (t.lookup "words") c.words := by
  have key_mem {key : String} {v : Toml.Value} {made : Section}
      (read : Section.ofEntry key v = .ok made) : key ∈ ["interpreter", "words"] := by
    obtain ⟨rfl, -⟩ | ⟨rfl, -⟩ := Section.cases_of_ofEntry read <;> simp
  have part_eq_none (c : Config) (key : String) (other : key ∉ ["interpreter", "words"]) :
      Section.part c key = none := by
    unfold Section.part
    split
    · exact absurd (by simp) other
    · exact absurd (by simp) other
    · rfl
  rw [ofTable, parts_sections.foldlM_eq_ok_iff_of_known key_mem part_eq_none apart,
    List.forall_mem_cons, List.forall_mem_singleton]
  exact and_congr_right fun _ => and_congr (Toml.given_map_iff fun _ _ => Section.settings.inj)
    (Toml.given_map_iff fun _ _ => Section.words.inj)

end Config

end Forth
