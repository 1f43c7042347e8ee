import Mathlib
import Forth.Config.Load

/-!
# Writing a setting into a document

A setting is written into a document by putting its value where the value of its key stands, or at
the end of the table `interpreter` if the key is not there, or in a table `interpreter` at the end
of the document if there is none.

A document is read by a fold over its sections, and the settings by a fold over the entries of one
of them. `Toml.foldlM_alter` says of any such fold when an edit under one key is a change to what
comes out, and both folds are cases of it. So the document with a setting written into it describes
the configuration with that setting (`Config.ofTable_write`).
-/

namespace Forth

theorem bind_eq_ok_iff {ε α β : Type} {x : Except ε α} {f : α → Except ε β} {b : β} :
    x >>= f = .ok b ↔ ∃ a, x = .ok a ∧ f a = .ok b := by
  cases x <;> simp [bind, Except.bind]

namespace Toml

/-- The table with an edit to what stands under a key. Where nothing does, the edit is made to a
value that is put at the end. -/
def alter (key : String) (edit : Value → Value) (absent : Value) (t : Table) : Table :=
  if t.any (·.1 == key) then t.map fun (name, v) => (name, if name = key then edit v else v)
  else t ++ [(key, edit absent)]

section

variable {σ ε : Type} {step : σ → String × Value → Except ε σ} {put : σ → σ}
variable {key : String} {edit : Value → Value} {absent : Value} {t : Table} {entry : String × Value}
variable {s s' : σ}

theorem foldlM_cons_eq_ok_iff :
    (entry :: t).foldlM step s = .ok s' ↔
      ∃ next, step s entry = .ok next ∧ t.foldlM step next = .ok s' := by
  rw [List.foldlM_cons, bind_eq_ok_iff]

/-- A change that every entry keeps is kept by all of them. -/
theorem foldlM_map_edit
    (keeps : ∀ s name v s', step s (name, v) = .ok s' →
      step (put s) (name, if name = key then edit v else v) = .ok (put s'))
    (h : t.foldlM step s = .ok s') :
    (t.map fun (name, v) => (name, if name = key then edit v else v)).foldlM step (put s) =
      .ok (put s') := by
  induction t generalizing s with
  | nil =>
    cases h
    rfl
  | cons entry t ih =>
    obtain ⟨next, first, rest⟩ := foldlM_cons_eq_ok_iff.1 h
    rw [List.map_cons, foldlM_cons_eq_ok_iff]
    exact ⟨put next, keeps _ _ _ _ first, ih rest⟩

/-- An edit under a key is a change to the result, if every entry keeps the change, an entry under
the key forgets whether it was made before, and such an entry at the end makes it. -/
theorem foldlM_alter
    (keeps : ∀ s name v s', step s (name, v) = .ok s' →
      step (put s) (name, if name = key then edit v else v) = .ok (put s'))
    (forgets : ∀ s v, step (put s) (key, edit v) = step s (key, edit v))
    (adds : (∀ entry ∈ t, entry.1 ≠ key) → step s' (key, edit absent) = .ok (put s'))
    (h : t.foldlM step s = .ok s') :
    (alter key edit absent t).foldlM step s = .ok (put s') := by
  rw [alter]
  split
  next found =>
    -- Up to the first entry under the key, the table is as it was.
    clear adds
    induction t generalizing s with
    | nil => cases found
    | cons entry t ih =>
      obtain ⟨name, v⟩ := entry
      obtain ⟨next, first, rest⟩ := foldlM_cons_eq_ok_iff.1 h
      rw [List.map_cons, foldlM_cons_eq_ok_iff]
      dsimp only
      by_cases same : name = key
      · have made := keeps s name v next first
        rw [if_pos same, same, forgets] at made
        rw [if_pos same, same]
        exact ⟨put next, made, foldlM_map_edit keeps rest⟩
      · rw [if_neg same]
        rw [List.any_cons, Bool.or_eq_true, beq_iff_eq] at found
        exact ⟨next, first, ih rest (found.resolve_left same)⟩
  next missing =>
    have other : ∀ entry ∈ t, entry.1 ≠ key := by
      intro entry member same
      exact missing (List.any_eq_true.2 ⟨entry, member, beq_iff_eq.2 same⟩)
    rw [List.foldlM_append, h]
    exact foldlM_cons_eq_ok_iff.2 ⟨put s', adds other, rfl⟩

end

end Toml

namespace Config

/-- A setting with the value that it is to have. -/
inductive Change where
  | maxDepth (limit : Nat)
  | split (mode : SplitMode)
  | prompt (text : String)
  deriving DecidableEq

namespace Change

def key : Change → String
  | maxDepth _ => "max_depth"
  | split _ => "split"
  | prompt _ => "prompt"

/-- The value as it stands in a document. -/
def value : Change → Toml.Value
  | maxDepth limit => .integer (Int64.ofNat limit)
  | split mode => .string mode.name
  | prompt text => .string text

/-- The integers of documents have 64 bits, one of which is the sign. -/
def Writable : Change → Prop
  | maxDepth limit => limit < 2 ^ 63
  | _ => True

def settings (change : Change) (s : Settings) : Settings :=
  match change with
  | maxDepth limit => { s with maxDepth := limit }
  | split mode => { s with split := mode }
  | prompt text => { s with prompt := text }

/-- The configuration with this setting. -/
def config (change : Change) (c : Config) : Config :=
  { c with settings := change.settings c.settings }

end Change

/-- The settings that a section gives, each with its name, also where they are given in order. -/
def named : Toml.Value → Toml.Table
  | .table entries => entries
  | .array items => ["max_depth", "split", "prompt"].zip items
  | .tables items => ["max_depth", "split", "prompt"].zip (items.map .table)
  | _ => []

namespace Change

/-- The section with the setting written into it. -/
def writeSection (change : Change) (v : Toml.Value) : Toml.Value :=
  .table (Toml.alter change.key (fun _ => change.value) change.value (named v))

/-- The document with the setting written into it. -/
def write (change : Change) (t : Toml.Table) : Toml.Table :=
  Toml.alter "interpreter" change.writeSection (.table []) t

end Change

section

variable {change other : Change} {s s' : Settings} {c c' : Config} {name : String} {v : Toml.Value}
variable {t : Toml.Table}

namespace Change

/-- Of two changes to one setting, the last one holds. -/
theorem settings_of_key_eq (h : other.key = change.key) (s : Settings) :
    change.settings (other.settings s) = change.settings s := by
  cases change <;> cases other <;> first | rfl | simp [key] at h

/-- Changes to different settings can be made in any order. -/
theorem settings_comm (h : other.key ≠ change.key) (s : Settings) :
    change.settings (other.settings s) = other.settings (change.settings s) := by
  cases change <;> cases other <;> first | rfl | exact absurd rfl h

end Change

/-! ## Settings -/

theorem depth_value {limit : Nat} (small : limit < 2 ^ 63) :
    Schema.depth (.integer (Int64.ofNat limit)) = .ok limit := by
  have value : (Int64.ofNat limit).toInt = limit := by
    rw [Int64.toInt_ofNat_of_lt small]
  have nonnegative : ¬ Int64.ofNat limit < 0 := by
    rw [Int64.lt_iff_toInt_lt, value, Int64.toInt_zero]
    omega
  rw [Schema.depth, if_neg nonnegative, value, Int.toNat_natCast]

theorem setField_value (writable : change.Writable) (s : Settings) :
    Schema.setField s change.key change.value = .ok (change.settings s) := by
  cases change with
  | maxDepth limit =>
    simp only [Change.key, Change.value, Schema.setField, depth_value writable]
    rfl
  | split mode =>
    simp only [Change.key, Change.value, Schema.setField, Schema.mode, Schema.modeOfName,
      SplitMode.ofName?_name]
    rfl
  | prompt text => rfl

/-- An entry of a section is a change, whatever the settings are before it. -/
theorem exists_of_setField (h : Schema.setField s name v = .ok s') :
    ∃ other : Change, other.key = name ∧ other.settings s = s' ∧
      ∀ s, Schema.setField s name v = .ok (other.settings s) := by
  unfold Schema.setField at h
  split at h
  · obtain ⟨limit, read, ⟨⟩⟩ := bind_eq_ok_iff.1 h
    exact ⟨.maxDepth limit, rfl, rfl, fun s => bind_eq_ok_iff.2 ⟨limit, read, rfl⟩⟩
  · obtain ⟨mode, read, ⟨⟩⟩ := bind_eq_ok_iff.1 h
    exact ⟨.split mode, rfl, rfl, fun s => bind_eq_ok_iff.2 ⟨mode, read, rfl⟩⟩
  · obtain ⟨text, read, ⟨⟩⟩ := bind_eq_ok_iff.1 h
    exact ⟨.prompt text, rfl, rfl, fun s => bind_eq_ok_iff.2 ⟨text, read, rfl⟩⟩
  · cases h

/-- The entries of a section keep a change, if the entry for its key makes it. -/
theorem setField_keeps (writable : change.Writable) (h : Schema.setField s name v = .ok s') :
    Schema.setField (change.settings s) name (if name = change.key then change.value else v) =
      .ok (change.settings s') := by
  obtain ⟨other, rfl, rfl, sets⟩ := exists_of_setField h
  by_cases same : other.key = change.key
  · rw [if_pos same, same, setField_value writable, Change.settings_of_key_eq rfl,
      Change.settings_of_key_eq same]
  · rw [if_neg same, sets, Change.settings_comm same]

theorem foldlM_named (h : Schema.settings v = .ok s) :
    (named v).foldlM (fun s (name, v) => Schema.setField s name v) .default = .ok s := by
  unfold Schema.settings at h
  split at h
  · exact h
  · exact h
  · exact h
  · cases h
  · cases h

/-- The section with a setting written into it gives the settings with it. -/
theorem settings_writeSection (writable : change.Writable) (h : Schema.settings v = .ok s) :
    Schema.settings (change.writeSection v) = .ok (change.settings s) := by
  refine Toml.foldlM_alter ?keeps ?forgets ?adds (foldlM_named h)
  case keeps =>
    intro s name v s'
    exact setField_keeps writable
  case forgets =>
    intro s v
    show Schema.setField (change.settings s) change.key change.value =
      Schema.setField s change.key change.value
    rw [setField_value writable, setField_value writable, Change.settings_of_key_eq rfl]
  case adds =>
    intro missing
    exact setField_value writable s

/-! ## Sections -/

/-- An entry of a document is a section. -/
theorem cases_of_setSection (h : c.setSection name v = .ok c') :
    (name = "interpreter" ∧ ∃ s, Schema.settings v = .ok s ∧ c' = { c with settings := s }) ∨
      name = "words" ∧ ∃ ws, Schema.words v = .ok ws ∧ c' = { c with words := ws } := by
  unfold setSection at h
  split at h
  · obtain ⟨s, read, ⟨⟩⟩ := bind_eq_ok_iff.1 h
    exact .inl ⟨rfl, s, read, rfl⟩
  · obtain ⟨ws, read, ⟨⟩⟩ := bind_eq_ok_iff.1 h
    exact .inr ⟨rfl, ws, read, rfl⟩
  · cases h

theorem setSection_keeps (writable : change.Writable) (h : c.setSection name v = .ok c') :
    (change.config c).setSection name (if name = "interpreter" then change.writeSection v else v) =
      .ok (change.config c') := by
  obtain ⟨rfl, s, read, rfl⟩ | ⟨rfl, ws, read, rfl⟩ := cases_of_setSection h
  · rw [if_pos rfl]
    exact bind_eq_ok_iff.2 ⟨_, settings_writeSection writable read, rfl⟩
  · exact bind_eq_ok_iff.2 ⟨ws, read, rfl⟩

/-- Without a section for the settings, they are the default ones. -/
theorem settings_of_no_section (missing : ∀ entry ∈ t, entry.1 ≠ "interpreter")
    (h : t.foldlM (fun c (name, v) => c.setSection name v) c = .ok c') :
    c'.settings = c.settings := by
  induction t generalizing c with
  | nil =>
    cases h
    rfl
  | cons entry t ih =>
    rw [List.forall_mem_cons] at missing
    obtain ⟨next, first, rest⟩ := Toml.foldlM_cons_eq_ok_iff.1 h
    rw [ih missing.2 rest]
    obtain ⟨same, -⟩ | ⟨-, ws, -, rfl⟩ := cases_of_setSection first
    · exact absurd same missing.1
    · rfl

/-- The document with a setting written into it describes the configuration with that setting. -/
theorem ofTable_write (writable : change.Writable) (h : ofTable t = .ok c) :
    ofTable (change.write t) = .ok (change.config c) := by
  refine Toml.foldlM_alter ?keeps ?forgets ?adds h
  case keeps =>
    intro c name v c'
    exact setSection_keeps writable
  case forgets =>
    intro c v
    rfl
  case adds =>
    intro missing
    have untouched : c.settings = .default := settings_of_no_section missing h
    refine bind_eq_ok_iff.2 ⟨_, settings_writeSection (s := .default) writable rfl, ?_⟩
    rw [Change.config, untouched]
    rfl

end

/-! ## Files -/

end Config

/-- The content of a file is a document with these entries. -/
def Toml.IsDocument (content : Option ByteArray) (t : Table) : Prop :=
  ∃ bytes text, content = some bytes ∧ String.fromUTF8? bytes = some text ∧ parse? text = some t

theorem Toml.isDocument_of_parse? {text : String} {t : Table} (h : parse? text = some t) :
    IsDocument (some text.toUTF8) t :=
  ⟨text.toUTF8, text, rfl, dif_pos text.isValidUTF8, h⟩

namespace Config

/-- The content of a file describes the configuration, valid or not. -/
def Describes (content : Option ByteArray) (c : Config) : Prop :=
  ∃ t, Toml.IsDocument content t ∧ ofTable t = .ok c

section

variable {content : Option ByteArray} {c c' : Config}

theorem validated_eq_ok_iff : c.validated = .ok c' ↔ c.validate = .ok () ∧ c = c' := by
  unfold validated
  cases c.validate <;> simp

theorem ofFile_of_describes (h : Describes content c) : ofFile content = c.validated := by
  obtain ⟨t, ⟨bytes, text, rfl, decoded, parsed⟩, described⟩ := h
  simp only [ofFile, decoded, ofText, parsed, described]

theorem Describes.ofTable_eq {t : Toml.Table} (h : Describes content c)
    (document : Toml.IsDocument content t) : ofTable t = .ok c := by
  obtain ⟨t', ⟨bytes, text, rfl, decoded, parsed⟩, described⟩ := h
  obtain ⟨bytes', text', ⟨⟩, decoded', parsed'⟩ := document
  rw [decoded] at decoded'
  obtain rfl := Option.some.inj decoded'
  rw [parsed] at parsed'
  obtain rfl := Option.some.inj parsed'
  exact described

theorem Describes.write {content' : Option ByteArray} {t : Toml.Table} {change : Change}
    (h : Describes content c) (writable : change.Writable) (document : Toml.IsDocument content t)
    (written : Toml.IsDocument content' (change.write t)) :
    Describes content' (change.config c) :=
  ⟨change.write t, written, ofTable_write writable (h.ofTable_eq document)⟩

/-- A file is loaded exactly if it describes a valid configuration. -/
theorem ofFile_eq_ok_iff : ofFile content = .ok c ↔ Describes content c ∧ c.validate = .ok () := by
  constructor
  · intro h
    unfold ofFile at h
    split at h
    · cases h
    next bytes =>
      split at h
      · cases h
      next text decoded =>
        unfold ofText at h
        split at h
        · cases h
        next t parsed =>
          split at h
          · split at h <;> cases h
          next described =>
            obtain ⟨valid, rfl⟩ := validated_eq_ok_iff.1 h
            exact ⟨⟨t, ⟨bytes, text, rfl, decoded, parsed⟩, described⟩, valid⟩
  · rintro ⟨described, valid⟩
    rw [ofFile_of_describes described]
    exact validated_eq_ok_iff.2 ⟨valid, rfl⟩

end

end Config

end Forth
