import Mathlib
import Forth.Proofs.DistinctKeys

/-!
# Reordered documents

The entries of a table can be put in another order, and so can those of the tables that stand in it,
at whatever depth. As long as no table has a key twice, the same keys lead to values that again
differ at most in the order of entries (`Value.Reordered.corresponding`).
-/

namespace Forth.Toml

/-- The values differ at most in the order of the entries of tables, at whatever depth. -/
inductive Value.Reordered : Value → Value → Prop where
  | refl (v : Value) : Reordered v v
  | trans {u v w : Value} (h : Reordered u v) (h' : Reordered v w) : Reordered u w
  | perm {t t' : Table} (h : t.Perm t') : Reordered (.table t) (.table t')
  | inEntry {before after : Table} {key : String} {v w : Value} (h : Reordered v w) :
      Reordered (.table (before ++ (key, v) :: after)) (.table (before ++ (key, w) :: after))
  | inItem {before after : List Value} {v w : Value} (h : Reordered v w) :
      Reordered (.array (before ++ v :: after)) (.array (before ++ w :: after))
  | inTable {before after : List Table} {t t' : Table} (h : Reordered (.table t) (.table t')) :
      Reordered (.tables (before ++ t :: after)) (.tables (before ++ t' :: after))

section

variable {α : Type} {key : String} {a : α} {entries entries' : List (String × α)}

theorem lookup_eq_none_iff_not_mem :
    entries.lookup key = none ↔ key ∉ entries.map Prod.fst := by
  simp only [List.lookup_eq_none_iff, bne_iff_ne, List.mem_map, not_exists, not_and]
  exact forall₂_congr fun entry member => ne_comm

theorem lookup_eq_some_iff_mem (apart : Apart entries) :
    entries.lookup key = some a ↔ (key, a) ∈ entries := by
  constructor
  · intro found
    obtain ⟨before, after, rfl, -⟩ := List.lookup_eq_some_iff.1 found
    simp
  · intro member
    obtain ⟨before, after, rfl⟩ := List.append_of_mem member
    refine List.lookup_eq_some_iff.2 ⟨before, after, rfl, fun entry earlier => ?_⟩
    -- An earlier entry under the key would be there twice.
    have apart : (before.map Prod.fst ++ key :: after.map Prod.fst).Nodup := by
      simpa [Apart] using apart
    have other := (List.nodup_append.1 apart).2.2 _ (List.mem_map_of_mem earlier) key
      List.mem_cons_self
    simpa using other.symm

theorem lookup_eq_of_perm (apart : Apart entries) (h : entries.Perm entries') :
    entries.lookup key = entries'.lookup key := by
  have apart' : Apart entries' := (h.map Prod.fst).nodup_iff.1 apart
  refine Option.ext fun a => ?_
  rw [lookup_eq_some_iff_mem apart, lookup_eq_some_iff_mem apart', h.mem_iff]

end

namespace Value

variable {u v w : Value} {t t' : Table} {ts : List Table} {items : List Value} {key : String}

theorem distinct_array_iff : (array items).Distinct ↔ ∀ v ∈ items, v.Distinct := by
  constructor
  · intro h
    cases h with
    | scalar h => cases h
    | array inner => exact inner
  · exact .array

theorem distinct_table_iff : (table t).Distinct ↔ Apart t ∧ ∀ e ∈ t, e.2.Distinct := by
  constructor
  · intro h
    cases h with
    | scalar h => cases h
    | table apart inner => exact ⟨apart, inner⟩
  · rintro ⟨apart, inner⟩
    exact .table apart inner

theorem distinct_tables_iff : (tables ts).Distinct ↔ ∀ t ∈ ts, (table t).Distinct := by
  constructor
  · intro h
    cases h with
    | scalar h => cases h
    | tables apart inner => exact fun t member => .table (apart t member) (inner t member)
  · intro h
    exact .tables (fun t member => (distinct_table_iff.1 (h t member)).1)
      fun t member => (distinct_table_iff.1 (h t member)).2

/-- The value under a key of a table is as the table is. -/
theorem distinct_of_lookup (h : (table t).Distinct) (found : t.lookup key = some v) :
    v.Distinct := by
  obtain ⟨apart, inner⟩ := distinct_table_iff.1 h
  exact inner (key, v) ((lookup_eq_some_iff_mem apart).1 found)

namespace Reordered

theorem symm (h : Reordered v w) : Reordered w v := by
  induction h with
  | refl v => exact .refl v
  | trans _ _ ih ih' => exact .trans ih' ih
  | perm h => exact .perm h.symm
  | inEntry _ ih => exact .inEntry ih
  | inItem _ ih => exact .inItem ih
  | inTable _ ih => exact .inTable ih

theorem distinct (h : Reordered v w) (own : v.Distinct) : w.Distinct := by
  induction h with
  | refl v => exact own
  | trans _ _ ih ih' => exact ih' (ih own)
  | perm h =>
    obtain ⟨apart, inner⟩ := distinct_table_iff.1 own
    exact .table ((h.map Prod.fst).nodup_iff.1 apart) fun e member => inner e (h.mem_iff.2 member)
  | inEntry _ ih =>
    obtain ⟨apart, inner⟩ := distinct_table_iff.1 own
    rw [List.forall_mem_append, List.forall_mem_cons] at inner
    refine .table (by simpa [Apart] using apart) ?_
    rw [List.forall_mem_append, List.forall_mem_cons]
    exact ⟨inner.1, ih inner.2.1, inner.2.2⟩
  | inItem _ ih =>
    rw [distinct_array_iff, List.forall_mem_append, List.forall_mem_cons] at own ⊢
    exact ⟨own.1, ih own.2.1, own.2.2⟩
  | inTable _ ih =>
    rw [distinct_tables_iff, List.forall_mem_append, List.forall_mem_cons] at own ⊢
    exact ⟨own.1, ih own.2.1, own.2.2⟩

/-- What has no entries has no other order. -/
theorem eq_of_isScalar (h : Reordered v w) (scalar : v.IsScalar) : w = v := by
  induction h with
  | refl v => rfl
  | trans _ _ ih ih' =>
    obtain rfl := ih scalar
    exact ih' scalar
  | perm | inEntry | inItem | inTable => cases scalar

end Reordered

end Value

/-- The same keys lead to values that differ at most in the order of entries. -/
def Corresponding (t t' : Table) : Prop :=
  ∀ key, Option.Rel Value.Reordered (t.lookup key) (t'.lookup key)

/-- The entries of a table, and none where there is no table. -/
def Value.entries : Value → Table
  | .table t => t
  | _ => []

/-- The entries of the table that stands under a key, and none where there is no table. -/
def entriesUnder (t : Table) (key : String) : Table :=
  (t.lookup key).elim [] Value.entries

section

variable {t t' t'' : Table} {key : String} {v v' w : Value}

theorem apart_entries (distinct : v.Distinct) : Apart v.entries := by
  cases v with
  | table t => exact (Value.distinct_table_iff.1 distinct).1
  | _ => exact List.nodup_nil

theorem apart_entriesUnder (distinct : (Value.table t).Distinct) (key : String) :
    Apart (entriesUnder t key) := by
  rw [entriesUnder]
  cases found : t.lookup key with
  | none => exact List.nodup_nil
  | some v => exact apart_entries (Value.distinct_of_lookup distinct found)

theorem rel_refl (found : Option Value) : Option.Rel Value.Reordered found found := by
  cases found with
  | none => exact .none
  | some v => exact .some (.refl v)

theorem rel_trans {first second third : Option Value} (h : Option.Rel Value.Reordered first second)
    (h' : Option.Rel Value.Reordered second third) : Option.Rel Value.Reordered first third := by
  cases h with
  | none => exact h'
  | some moved =>
    cases h' with
    | some moved' => exact .some (moved.trans moved')

theorem corresponding_refl (t : Table) : Corresponding t t := fun key => rel_refl (t.lookup key)

theorem Value.Reordered.entries (h : v.Reordered w) (distinct : v.Distinct) :
    Corresponding v.entries w.entries := by
  induction h with
  | refl v => exact corresponding_refl v.entries
  | trans h _ ih ih' =>
    intro key
    exact rel_trans (ih distinct key) (ih' (h.distinct distinct) key)
  | @perm t t' h =>
    intro key
    show Option.Rel Value.Reordered (t.lookup key) (t'.lookup key)
    rw [lookup_eq_of_perm (distinct_table_iff.1 distinct).1 h]
    exact rel_refl _
  | @inEntry before after key v w h =>
    intro other
    show Option.Rel Value.Reordered ((before ++ (key, v) :: after).lookup other)
      ((before ++ (key, w) :: after).lookup other)
    rw [List.lookup_append, List.lookup_append]
    cases before.lookup other with
    | some v => exact rel_refl _
    | none =>
      rw [List.lookup_cons, List.lookup_cons]
      cases other == key with
      | true => exact .some h
      | false => exact rel_refl _
  | inItem | inTable => exact corresponding_refl []

theorem Value.Reordered.exists_table (h : (Value.table t).Reordered w) : ∃ t', w = .table t' := by
  generalize whole : Value.table t = v at h
  induction h generalizing t with
  | refl v => exact ⟨t, whole.symm⟩
  | trans _ _ ih ih' =>
    obtain ⟨t', made⟩ := ih whole
    exact ih' made.symm
  | perm | inEntry => exact ⟨_, rfl⟩
  | inItem | inTable => cases whole

/-! ## Corresponding tables -/

namespace Corresponding

theorem symm (h : Corresponding t t') : Corresponding t' t := by
  intro key
  have related := h key
  generalize t.lookup key = found at related
  generalize t'.lookup key = found' at related
  cases related with
  | none => exact .none
  | some moved => exact .some moved.symm

theorem lookup_eq_none (h : Corresponding t t') (missing : t.lookup key = none) :
    t'.lookup key = none := by
  have related := h key
  rw [missing] at related
  generalize t'.lookup key = found' at related
  cases related
  rfl

theorem exists_of_lookup (h : Corresponding t t') (found : t.lookup key = some v) :
    ∃ w, t'.lookup key = some w ∧ v.Reordered w := by
  have related := h key
  rw [found] at related
  generalize t'.lookup key = found' at related
  cases related with
  | some moved => exact ⟨_, rfl, moved⟩

/-- A scalar stands in both tables under the same keys. -/
theorem lookup_eq_some (h : Corresponding t t') (scalar : v.IsScalar)
    (found : t.lookup key = some v) : t'.lookup key = some v := by
  obtain ⟨w, found', moved⟩ := h.exists_of_lookup found
  rw [found', moved.eq_of_isScalar scalar]

/-- What the values of one table have, and does not depend on the order of entries, the values of
the other have. -/
theorem forall_lookup {P : Value → Prop} (h : Corresponding t t')
    (kept : ∀ {v w}, P v → v.Reordered w → P w) (all : ∀ v, t.lookup key = some v → P v) :
    ∀ v, t'.lookup key = some v → P v := by
  intro v found
  obtain ⟨w, found', moved⟩ := h.symm.exists_of_lookup found
  exact kept (all w found') moved.symm

theorem forall_lookup_of_isScalar {P : Value → Prop} (h : Corresponding t t')
    (scalar : ∀ {v}, P v → v.IsScalar) (all : ∀ v, t.lookup key = some v → P v) :
    ∀ v, t'.lookup key = some v → P v :=
  h.forall_lookup (fun own moved => moved.eq_of_isScalar (scalar own) ▸ own) all

theorem entriesUnder (h : Corresponding t t') (distinct : (Value.table t).Distinct) :
    Corresponding (entriesUnder t key) (entriesUnder t' key) := by
  rw [Toml.entriesUnder, Toml.entriesUnder]
  cases found : t.lookup key with
  | none =>
    rw [h.lookup_eq_none found]
    exact corresponding_refl []
  | some v =>
    obtain ⟨w, found', moved⟩ := h.exists_of_lookup found
    rw [found']
    exact moved.entries (Value.distinct_of_lookup distinct found)

end Corresponding

end

end Forth.Toml
