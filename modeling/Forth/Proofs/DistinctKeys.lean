import Mathlib
import Forth.Toml.Document

/-!
# Keys of a document

No table of a document has a key twice, at whatever depth it stands and in however many pieces it
was described (`distinct_of_parse?`).

Tables come about as drafts. Everything that is done to a draft is an alteration under one key at
the end of a path, and an alteration leaves the other keys as they are (`Draft.distinct_alter`,
`Draft.distinct_descend`). Values come out of readers, and a reader that is put together from others
yields what theirs make of it (`Reader.Yields`).
-/

namespace Forth.Toml

variable {α β σ : Type}

/-- No two of the entries have one key. -/
def Apart (entries : List (String × α)) : Prop := (entries.map Prod.fst).Nodup

/-- The value holds no other values. -/
def Value.IsScalar : Value → Prop
  | .array _ | .table _ | .tables _ => False
  | .string _ | .integer _ | .float _ | .boolean _ | .datetime _ => True

/-- Every table in the value has each of its keys once. -/
inductive Value.Distinct : Value → Prop where
  | scalar {v : Value} (h : v.IsScalar) : Distinct v
  | array {items : List Value} (inner : ∀ v ∈ items, Distinct v) : Distinct (.array items)
  | table {entries : Table} (apart : Apart entries) (inner : ∀ e ∈ entries, Distinct e.2) :
      Distinct (.table entries)
  | tables {ts : List Table} (apart : ∀ t ∈ ts, Apart t) (inner : ∀ t ∈ ts, ∀ e ∈ t, Distinct e.2) :
      Distinct (.tables ts)

/-- The same of what a key of a draft stands for. -/
inductive Item.Distinct : Item → Prop where
  | value {v : Value} (h : v.Distinct) : Distinct (.value v)
  | table {origin : Origin} {entries : Draft} (apart : Apart entries)
      (inner : ∀ e ∈ entries, Distinct e.2) : Distinct (.table origin entries)
  | tables {ds : List Draft} (apart : ∀ d ∈ ds, Apart d) (inner : ∀ d ∈ ds, ∀ e ∈ d, Distinct e.2) :
      Distinct (.tables ds)

/-- The same of a draft. -/
structure Draft.Distinct (d : Draft) : Prop where
  apart : Apart d
  inner : ∀ e ∈ d, e.2.Distinct

theorem Item.distinct_table_iff {origin : Origin} {d : Draft} :
    (Item.table origin d).Distinct ↔ Draft.Distinct d := by
  constructor
  · intro h
    cases h with
    | table apart inner => exact ⟨apart, inner⟩
  · rintro ⟨apart, inner⟩
    exact .table apart inner

theorem Item.distinct_tables_iff {ds : List Draft} :
    (Item.tables ds).Distinct ↔ ∀ d ∈ ds, Draft.Distinct d := by
  constructor
  · intro h
    cases h with
    | tables apart inner => exact fun d member => ⟨apart d member, inner d member⟩
  · intro h
    exact .tables (fun d member => (h d member).apart) fun d member => (h d member).inner

namespace Draft

/-! ## Alterations -/

theorem distinct_nil : Draft.Distinct [] := ⟨List.nodup_nil, List.forall_mem_nil _⟩

/-- A change of this kind makes nothing of distinct items but distinct ones, and besides answers
something with the property. -/
def Keeps (change : Option Item → Option (α × Option Item)) (P : α → Prop) : Prop :=
  ∀ before a after, (∀ i ∈ before, i.Distinct) → change before = some (a, after) →
    P a ∧ ∀ i ∈ after, i.Distinct

variable {change : Option Item → Option (α × Option Item)} {P : α → Prop} {key : String} {a : α}
variable {d d' : Draft}

/-- An alteration under a key brings no other key in. -/
theorem mem_keys_of_alter (h : alter change key d = some (a, d')) :
    ∀ k ∈ d'.map Prod.fst, k = key ∨ k ∈ d.map Prod.fst := by
  induction d generalizing d' with
  | nil =>
    obtain ⟨⟨a, after⟩, -, same⟩ := Option.map_eq_some_iff.1 h
    obtain ⟨rfl, rfl⟩ := Prod.mk.inj same
    cases after <;> simp
  | cons e rest ih =>
    obtain ⟨k, item⟩ := e
    rw [alter] at h
    split at h
    next own =>
      obtain ⟨⟨a, after⟩, -, same⟩ := Option.map_eq_some_iff.1 h
      obtain ⟨rfl, rfl⟩ := Prod.mk.inj same
      cases after <;> simp +contextual
    next =>
      obtain ⟨⟨a, rest'⟩, altered, same⟩ := Option.map_eq_some_iff.1 h
      obtain ⟨rfl, rfl⟩ := Prod.mk.inj same
      rw [List.map_cons, List.map_cons, List.forall_mem_cons]
      refine ⟨.inr List.mem_cons_self, fun k' member => ?_⟩
      exact (ih altered k' member).imp_right (List.mem_cons_of_mem k)

theorem distinct_alter (keeps : Keeps change P) (distinct : Draft.Distinct d)
    (h : alter change key d = some (a, d')) : P a ∧ Draft.Distinct d' := by
  induction d generalizing d' with
  | nil =>
    obtain ⟨⟨a, after⟩, changed, same⟩ := Option.map_eq_some_iff.1 h
    obtain ⟨rfl, rfl⟩ := Prod.mk.inj same
    obtain ⟨answered, kept⟩ := keeps none a after (by simp) changed
    refine ⟨answered, ?_⟩
    cases after with
    | none => exact distinct_nil
    | some i => exact ⟨List.nodup_singleton key, List.forall_mem_singleton.2 (kept i rfl)⟩
  | cons e rest ih =>
    obtain ⟨k, item⟩ := e
    obtain ⟨other, apart⟩ := List.nodup_cons.1 distinct.apart
    obtain ⟨own, inner⟩ := List.forall_mem_cons.1 distinct.inner
    rw [alter] at h
    split at h
    next same =>
      obtain rfl := same
      obtain ⟨⟨a, after⟩, changed, same⟩ := Option.map_eq_some_iff.1 h
      obtain ⟨rfl, rfl⟩ := Prod.mk.inj same
      obtain ⟨answered, kept⟩ := keeps (some item) a after (by simpa using own) changed
      refine ⟨answered, ?_⟩
      cases after with
      | none => exact ⟨apart, inner⟩
      | some i =>
        exact ⟨List.nodup_cons.2 ⟨other, apart⟩, List.forall_mem_cons.2 ⟨kept i rfl, inner⟩⟩
    next notSame =>
      obtain ⟨⟨a, rest'⟩, altered, same⟩ := Option.map_eq_some_iff.1 h
      obtain ⟨rfl, rfl⟩ := Prod.mk.inj same
      obtain ⟨answered, kept⟩ := ih ⟨apart, inner⟩ altered
      refine ⟨answered, ?_, List.forall_mem_cons.2 ⟨own, kept.inner⟩⟩
      refine List.nodup_cons.2 ⟨fun member => ?_, kept.apart⟩
      rcases mem_keys_of_alter altered k member with same | member
      · exact notSame same
      · exact other member

/-- What the end of a path keeps, the whole path keeps. -/
theorem distinct_descend {origin here : Origin} {path : List String}
    {change : Origin → Draft → Option (α × Draft)}
    (keeps : ∀ here d a d', Draft.Distinct d → change here d = some (a, d') →
      P a ∧ Draft.Distinct d')
    (distinct : Draft.Distinct d) (h : descend origin change here path d = some (a, d')) :
    P a ∧ Draft.Distinct d' := by
  induction path generalizing here d a d' with
  | nil => exact keeps here d a d' distinct h
  | cons key path ih =>
    rw [descend] at h
    refine distinct_alter ?_ distinct h
    intro before a after inner changed
    dsimp only at changed
    split at changed
    · obtain ⟨⟨a, entries⟩, below, same⟩ := Option.map_eq_some_iff.1 changed
      obtain ⟨rfl, rfl⟩ := Prod.mk.inj same
      obtain ⟨answered, kept⟩ := ih distinct_nil below
      exact ⟨answered, by simpa using Item.distinct_table_iff.2 kept⟩
    · cases changed
    · cases changed
    next latest earlier =>
      obtain ⟨own, others⟩ :=
        List.forall_mem_cons.1 (Item.distinct_tables_iff.1 (inner _ rfl))
      obtain ⟨⟨a, entries⟩, below, same⟩ := Option.map_eq_some_iff.1 changed
      obtain ⟨rfl, rfl⟩ := Prod.mk.inj same
      obtain ⟨answered, kept⟩ := ih own below
      have all := List.forall_mem_cons.2 ⟨kept, others⟩
      exact ⟨answered, by simpa using Item.distinct_tables_iff.2 all⟩
    next made entries =>
      split at changed
      · cases changed
      · obtain ⟨⟨a, entries'⟩, below, same⟩ := Option.map_eq_some_iff.1 changed
        obtain ⟨rfl, rfl⟩ := Prod.mk.inj same
        obtain ⟨answered, kept⟩ := ih (Item.distinct_table_iff.1 (inner _ rfl)) below
        exact ⟨answered, by simpa using Item.distinct_table_iff.2 kept⟩

/-- What an alteration keeps is kept where it is made at the end of a path. -/
theorem distinct_alterAt {origin here : Origin} {path : List String} (keeps : Keeps change P)
    (distinct : Draft.Distinct d)
    (h : descend origin (fun _ => alter change key) here path d = some (a, d')) :
    P a ∧ Draft.Distinct d' :=
  distinct_descend (fun _ _ _ _ own altered => distinct_alter keeps own altered) distinct h

/-! ## What statements do to a draft -/

variable {entries : Draft} {k : Key} {v : Value}

theorem distinct_assign (distinct : Draft.Distinct d) (own : v.Distinct)
    (h : assign d k v = some d') : Draft.Distinct d' := by
  obtain ⟨⟨⟨⟩, d'⟩, descended, rfl⟩ := Option.map_eq_some_iff.1 h
  refine (distinct_descend (P := fun _ => True) ?_ distinct descended).2
  intro here d a d' distinct put
  split at put
  · cases put
  · refine distinct_alter (P := fun _ => True) ?_ distinct put
    intro before a after _ changed
    dsimp only at changed
    split at changed
    · cases changed
      exact ⟨trivial, by simpa using .value own⟩
    · cases changed

theorem distinct_takeTable (distinct : Draft.Distinct d) (h : takeTable d k = some (entries, d')) :
    Draft.Distinct entries ∧ Draft.Distinct d' := by
  refine distinct_alterAt ?_ distinct h
  intro before a after inner changed
  dsimp only at changed
  split at changed
  · cases changed
    exact ⟨distinct_nil, by simp⟩
  · cases changed
    exact ⟨Item.distinct_table_iff.1 (inner _ rfl), by simp⟩
  · cases changed

theorem distinct_putTable (distinct : Draft.Distinct d) (own : Draft.Distinct entries)
    (h : putTable d k entries = some d') : Draft.Distinct d' := by
  obtain ⟨⟨⟨⟩, d'⟩, descended, rfl⟩ := Option.map_eq_some_iff.1 h
  refine (distinct_alterAt (P := fun _ => True) ?_ distinct descended).2
  intro before a after _ changed
  dsimp only at changed
  split at changed
  · cases changed
    exact ⟨trivial, by simpa using Item.distinct_table_iff.2 own⟩
  · cases changed

theorem distinct_openTables (distinct : Draft.Distinct d) (h : openTables d k = some d') :
    Draft.Distinct d' := by
  obtain ⟨⟨⟨⟩, d'⟩, descended, rfl⟩ := Option.map_eq_some_iff.1 h
  refine (distinct_alterAt (P := fun _ => True) ?_ distinct descended).2
  intro before a after inner changed
  dsimp only at changed
  split at changed
  · cases changed
    exact ⟨trivial, by simpa using Item.distinct_tables_iff.2 (List.forall_mem_nil _)⟩
  · cases changed
    exact ⟨trivial, inner⟩
  · cases changed

theorem distinct_addTable (distinct : Draft.Distinct d) (own : Draft.Distinct entries)
    (h : addTable d k entries = some d') : Draft.Distinct d' := by
  obtain ⟨⟨⟨⟩, d'⟩, descended, rfl⟩ := Option.map_eq_some_iff.1 h
  refine (distinct_alterAt (P := fun _ => True) ?_ distinct descended).2
  intro before a after inner changed
  dsimp only at changed
  split at changed
  next earlier =>
    cases changed
    have all := List.forall_mem_cons.2 ⟨own, Item.distinct_tables_iff.1 (inner _ rfl)⟩
    exact ⟨trivial, by simpa using Item.distinct_tables_iff.2 all⟩
  · cases changed

/-! ## Finished tables -/

theorem finish_eq_map (d : Draft) : finish d = d.map fun (key, item) => (key, finishItem item) := by
  induction d with
  | nil => rw [finish]; rfl
  | cons e d ih =>
    obtain ⟨key, item⟩ := e
    rw [finish, ih, List.map_cons]

theorem finishAll_eq_map (ds : List Draft) : finishAll ds = ds.map finish := by
  induction ds with
  | nil => rw [finishAll]; rfl
  | cons d ds ih => rw [finishAll, ih, List.map_cons]

theorem apart_finish (apart : Apart d) : Apart (finish d) := by
  have same : (finish d).map Prod.fst = d.map Prod.fst := by
    rw [finish_eq_map, List.map_map]
    rfl
  rwa [Apart, same]

theorem forall_mem_finish {Q : Value → Prop} (h : ∀ e ∈ d, Q (finishItem e.2)) :
    ∀ e ∈ finish d, Q e.2 := by
  rw [finish_eq_map, List.forall_mem_map]
  exact h

theorem distinct_finishItem {item : Item} (distinct : item.Distinct) :
    (finishItem item).Distinct := by
  induction distinct with
  | value h =>
    rw [finishItem]
    exact h
  | table apart _ ih =>
    rw [finishItem]
    exact .table (apart_finish apart) (forall_mem_finish ih)
  | @tables ds apart _ ih =>
    have finished {t : Table} (member : t ∈ (finishAll ds).reverse) : ∃ d ∈ ds, finish d = t := by
      rw [List.mem_reverse, finishAll_eq_map] at member
      exact List.mem_map.1 member
    rw [finishItem]
    refine .tables ?_ ?_
    · intro t member
      obtain ⟨d, own, rfl⟩ := finished member
      exact apart_finish (apart d own)
    · intro t member
      obtain ⟨d, own, rfl⟩ := finished member
      exact forall_mem_finish (ih d own)

theorem distinct_finish (distinct : Draft.Distinct d) : (Value.table (finish d)).Distinct :=
  .table (apart_finish distinct.apart)
    (forall_mem_finish fun e member => distinct_finishItem (distinct.inner e member))

end Draft

/-! ## Readers -/

/-- What is read has the property. -/
def Reader.Yields (p : Reader α) (P : α → Prop) : Prop :=
  ∀ s a rest, p.read s = some (a, rest) → P a

namespace Reader.Yields

variable {p q : Reader α} {P : α → Prop} {Q : β → Prop}

theorem filterMap {f : α → Option β} (h : p.Yields P) (kept : ∀ a b, P a → f a = some b → Q b) :
    (p.filterMap f).Yields Q := by
  intro s b rest read
  obtain ⟨⟨a, t⟩, first, then'⟩ := Option.bind_eq_some_iff.1 read
  obtain ⟨b, made, same⟩ := Option.map_eq_some_iff.1 then'
  obtain ⟨rfl, rfl⟩ := Prod.mk.inj same
  exact kept a b (h s a t first) made

theorem map {f : α → β} (h : p.Yields P) (kept : ∀ a, P a → Q (f a)) : (p.map f).Yields Q :=
  h.filterMap fun a _ own made => Option.some.inj made ▸ kept a own

theorem any (p : Reader α) : p.Yields fun _ => True := fun _ _ _ _ => trivial

theorem orElse (h : p.Yields P) (h' : q.Yields P) : (p.orElse q).Yields P := by
  intro s a rest read
  rcases Option.or_eq_some_iff.1 read with read | ⟨-, read⟩
  · exact h s a rest read
  · exact h' s a rest read

theorem andThen {q : α → Reader β} (h : ∀ a, (q a).Yields Q) : (p.andThen q).Yields Q := by
  intro s b rest read
  obtain ⟨⟨a, t⟩, -, then'⟩ := Option.bind_eq_some_iff.1 read
  exact h a t b rest then'

theorem after (h : p.Yields P) (k : Skip) : (p.after k).Yields P := by
  intro s a rest read
  obtain ⟨t, -, then'⟩ := Option.bind_eq_some_iff.1 read
  exact h t a rest then'

theorem before (h : p.Yields P) (k : Skip) : (p.before k).Yields P := by
  intro s a rest read
  obtain ⟨⟨a, t⟩, first, then'⟩ := Option.bind_eq_some_iff.1 read
  obtain ⟨_, -, same⟩ := Option.map_eq_some_iff.1 then'
  obtain ⟨rfl, rfl⟩ := Prod.mk.inj same
  exact h s a t first

theorem items {sep : Char} {gap : Skip} {acc : List α} (h : p.Yields P) (before : ∀ a ∈ acc, P a)
    (s : List Char) : ∀ a ∈ (items sep gap p acc s).1, P a := by
  fun_induction Reader.items sep gap p acc s with
  | case1 acc => exact fun a member => before a (List.mem_reverse.1 member)
  | case2 acc s a rest read =>
    have own := h.after gap _ _ _ read
    intro a' member
    exact List.forall_mem_cons.2 ⟨own, before⟩ a' (List.mem_reverse.1 member)
  | case3 acc s a rest read t more ih =>
    exact ih (List.forall_mem_cons.2 ⟨h.after gap _ _ _ read, before⟩)

theorem enclosed {sep closing : Char} {gap : Skip} (h : p.Yields P) :
    (enclosed sep gap p closing).Yields fun (as, _) => ∀ a ∈ as, P a := by
  intro s answer rest read
  have all : ∀ a ∈ (Reader.items sep gap p [] s).1, P a := h.items (List.forall_mem_nil P) s
  simp only [Reader.enclosed] at read
  split at read
  next cut =>
    split at read
    · obtain ⟨rfl, -⟩ := Prod.mk.inj (Option.some.inj read)
      exact all
    · cases read
  · cases read

end Reader.Yields

/-! ## Documents -/

/-- What every step keeps, all of them keep. -/
theorem of_foldlM_eq_some {P : σ → Prop} {step : σ → α → Option σ} {xs : List α} {s s' : σ}
    (keeps : ∀ s x s', x ∈ xs → P s → step s x = some s' → P s') (start : P s)
    (h : xs.foldlM step s = some s') : P s' := by
  induction xs generalizing s with
  | nil => exact Option.some.inj h ▸ start
  | cons x xs ih =>
    obtain ⟨next, first, rest⟩ := Option.bind_eq_some_iff.1 h
    exact ih (fun s y s' member => keeps s y s' (List.mem_cons_of_mem x member))
      (keeps s x next List.mem_cons_self start first) rest

theorem isScalar_of_scalar? {s : List Char} {v : Value} (h : scalar? s = some v) : v.IsScalar := by
  unfold scalar? at h
  repeat' split at h
  all_goals
    cases h
  all_goals trivial

theorem yields_scalar : scalar.Yields Value.Distinct :=
  (Reader.Yields.any scalarText).filterMap fun _ _ _ read => .scalar (isScalar_of_scalar? read)

theorem yields_string : (string.map Value.string).Yields Value.Distinct :=
  (Reader.Yields.any string).map fun _ _ => .scalar trivial

theorem yields_binding {value : Reader Value} (h : value.Yields Value.Distinct) :
    (binding value).Yields fun b => b.2.Distinct :=
  Reader.Yields.andThen fun _ => (h.after _).map fun _ own => own

theorem distinct_of_inlineTable? {bindings : List (Key × Value)} {v : Value}
    (own : ∀ b ∈ bindings, b.2.Distinct) (h : inlineTable? bindings = some v) : v.Distinct := by
  obtain ⟨d, built, rfl⟩ := Option.map_eq_some_iff.1 h
  refine Draft.distinct_finish (of_foldlM_eq_some ?_ Draft.distinct_nil built)
  intro d b d' member distinct assigned
  exact Draft.distinct_assign distinct (own b member) assigned

theorem yields_array {value : Reader Value} (h : value.Yields Value.Distinct) :
    (array value).Yields Value.Distinct :=
  (h.enclosed.map fun _ inner => .array inner).after _

theorem yields_inlineTable {value : Reader Value} (h : value.Yields Value.Distinct) :
    (inlineTable value).Yields Value.Distinct := by
  refine ((yields_binding h).enclosed.filterMap ?_).after _
  rintro ⟨bindings, trailing⟩ v own made
  dsimp only at made
  split at made
  · cases made
  · exact distinct_of_inlineTable? own made

theorem yields_value (depth : Nat) : (value depth).Yields Value.Distinct := by
  induction depth with
  | zero => exact yields_string.orElse yields_scalar
  | succ depth ih =>
    exact yields_string.orElse
      ((yields_array ih).orElse ((yields_inlineTable ih).orElse yields_scalar))

/-- The value that the statement assigns, if it assigns one, is distinct. -/
def Statement.Distinct : Statement → Prop
  | .assign _ v => v.Distinct
  | .header _ | .arrayHeader _ => True

theorem yields_statement : statement.Yields Statement.Distinct := by
  have header : (key.map Statement.header).Yields Statement.Distinct :=
    (Reader.Yields.any key).map fun _ _ => trivial
  have arrayHeader : (key.map Statement.arrayHeader).Yields Statement.Distinct :=
    (Reader.Yields.any key).map fun _ _ => trivial
  refine (((arrayHeader.after _).before _).orElse
    (((header.after _).before _).orElse ?assign)).before _
  exact (yields_binding (yields_value maxNesting)).map fun _ own => own

theorem distinct_of_statements {acc ss : List Statement} {s : List Char}
    (before : ∀ a ∈ acc, a.Distinct) (h : statements acc s = some ss) : ∀ a ∈ ss, a.Distinct := by
  fun_induction statements acc s with
  | case1 acc s =>
    obtain rfl := Option.some.inj h
    exact fun a member => before a (List.mem_reverse.1 member)
  | case2 acc s _ a rest read ih =>
    exact ih (List.forall_mem_cons.2 ⟨yields_statement.after spaces _ _ _ read, before⟩) h
  | case3 acc s _ _ rest _ ih => exact ih before h
  | case4 => cases h

namespace Progress

variable {p p' : Progress}

/-- No table of what has been read so far has a key twice. -/
structure Distinct (p : Progress) : Prop where
  root : Draft.Distinct p.root
  current : Draft.Distinct p.current

theorem Distinct.close {d : Draft} (h : p.Distinct) (closed : p.close = some d) :
    Draft.Distinct d := by
  unfold Progress.close at closed
  split at closed
  · exact Option.some.inj closed ▸ h.current
  · exact Draft.distinct_putTable h.root h.current closed
  · exact Draft.distinct_addTable h.root h.current closed

theorem Distinct.step {s : Statement} (h : p.Distinct) (own : s.Distinct)
    (stepped : p.step s = some p') : p'.Distinct := by
  cases s with
  | assign key v =>
    obtain ⟨d, assigned, rfl⟩ := Option.map_eq_some_iff.1 stepped
    exact ⟨h.root, Draft.distinct_assign h.current own assigned⟩
  | header key =>
    obtain ⟨d, closed, rest⟩ := Option.bind_eq_some_iff.1 stepped
    obtain ⟨⟨current, root⟩, taken, made⟩ := Option.bind_eq_some_iff.1 rest
    obtain rfl := Option.some.inj made
    obtain ⟨own, others⟩ := Draft.distinct_takeTable (h.close closed) taken
    exact ⟨others, own⟩
  | arrayHeader key =>
    obtain ⟨d, closed, rest⟩ := Option.bind_eq_some_iff.1 stepped
    obtain ⟨root, opened, made⟩ := Option.bind_eq_some_iff.1 rest
    obtain rfl := Option.some.inj made
    exact ⟨Draft.distinct_openTables (h.close closed) opened, Draft.distinct_nil⟩

end Progress

/-- No table of a document has a key twice. -/
theorem distinct_of_parse? {text : String} {t : Table} (h : parse? text = some t) :
    (Value.table t).Distinct := by
  obtain ⟨ss, read, described⟩ := Option.bind_eq_some_iff.1 h
  have own := distinct_of_statements (List.forall_mem_nil _) read
  obtain ⟨p, ran, rest⟩ := Option.bind_eq_some_iff.1 described
  obtain ⟨d, closed, finished⟩ := Option.bind_eq_some_iff.1 rest
  obtain rfl := Option.some.inj finished
  have start : Progress.Distinct ⟨[], .root, []⟩ := ⟨Draft.distinct_nil, Draft.distinct_nil⟩
  have distinct : p.Distinct := by
    refine of_foldlM_eq_some ?_ start ran
    intro p s p' member h stepped
    exact h.step (own s member) stepped
  exact Draft.distinct_finish (distinct.close closed)

end Forth.Toml
