import Mathlib
import Forth.Dictionary
import Forth.Proofs.Encoding

/-!
# A dictionary and its definitions

A dictionary comes about by definitions, one after the other, and says of a name what the last
definition under that name says (`IsLast`). Where there is none, the native words stand. Everything
that can be asked of a dictionary follows from that (`answers_by_last_definition`): what a name is
bound to, whether it is bound, which word a new definition takes the place of, and the listing, in
which every name that was defined stands once.

So the order of definitions matters only where two of them have one name (`ofList_of_perm`), and the
order in which a table keeps the words does not matter at all (`mergeSort_eq_composites`).
-/

namespace Forth.Dictionary

/-- The last of the definitions under a name. -/
def IsLast (ws : List Composite) (name : String) (w : Composite) : Prop :=
  ∃ earlier later, ws = earlier ++ w :: later ∧ w.name = name ∧ ∀ v ∈ later, v.name ≠ name

/-- The dictionary after these definitions, one after the other. -/
def defineAll (d : Dictionary) (ws : List Composite) : Dictionary :=
  ws.foldl (fun d w => (d.define w).2) d

variable {d : Dictionary} {ws vs : List Composite} {name : String} {v w : Composite}

/-! ## Bindings -/

theorem defineAll_empty (ws : List Composite) : empty.defineAll ws = ofList ws := rfl

theorem find?_ofList_eq_some_iff : (ofList ws).find? name = some w ↔ IsLast ws name w := by
  rw [find?_ofList, List.find?_eq_some_iff_append]
  constructor
  · rintro ⟨own, later, earlier, split, others⟩
    refine ⟨earlier.reverse, later.reverse, ?_, by simpa using own, ?_⟩
    · rw [← List.reverse_reverse ws, split]
      simp
    · intro v member
      simpa using others v (List.mem_reverse.1 member)
  · rintro ⟨earlier, later, rfl, own, others⟩
    refine ⟨by simpa using own, later.reverse, earlier.reverse, by simp, ?_⟩
    intro v member
    simpa using others v (List.mem_reverse.1 member)

theorem find?_ofList_eq_none_iff :
    (ofList ws).find? name = none ↔ ∀ w ∈ ws, w.name ≠ name := by
  rw [find?_ofList, List.find?_eq_none]
  simp

/-- A name is bound to the composite word that is found under it. -/
theorem resolve?_eq_composite_iff :
    d.resolve? name = some (.composite w) ↔ d.find? name = some w := by
  rw [resolve?]
  cases d.find? name <;> simp

/-- Where there is none, it is bound to the native word of this name. -/
theorem resolve?_eq_native_iff {n : Native} :
    d.resolve? name = some (.native n) ↔ d.find? name = none ∧ n.name = name := by
  rw [resolve?]
  cases d.find? name with
  | some w => simp
  | none =>
    suffices Native.ofName? name = some n ↔ n.name = name by simpa
    constructor
    · exact Native.name_of_ofName?
    · rintro rfl
      exact Native.ofName?_name n

theorem resolve?_eq_none_iff :
    d.resolve? name = none ↔ d.find? name = none ∧ ∀ n : Native, n.name ≠ name := by
  constructor
  · intro unbound
    refine ⟨?_, ?_⟩
    · cases found : d.find? name with
      | none => rfl
      | some w => cases unbound.symm.trans (resolve?_eq_composite_iff.2 found)
    · rintro n rfl
      cases found : d.find? n.name with
      | none => cases unbound.symm.trans (resolve?_eq_native_iff.2 ⟨found, rfl⟩)
      | some w => cases unbound.symm.trans (resolve?_eq_composite_iff.2 found)
  · rintro ⟨notDefined, notNative⟩
    cases bound : d.resolve? name with
    | none => rfl
    | some b =>
      cases b with
      | composite w => cases notDefined.symm.trans (resolve?_eq_composite_iff.1 bound)
      | native n => exact absurd (resolve?_eq_native_iff.1 bound).2 (notNative n)

/-- A definition touches no other name. -/
theorem resolve?_insert_of_ne (other : w.name ≠ name) :
    (d.insert w).resolve? name = d.resolve? name := by
  rw [resolve?, resolve?, find?_insert, if_neg other]

/-! ## The listing -/

theorem mem_composites_iff : w ∈ d.composites ↔ d.find? w.name = some w := by
  refine ⟨?_, mem_composites⟩
  intro member
  obtain ⟨⟨name, body⟩, entry, rfl⟩ := List.mem_map.1 member
  rw [find?, Std.ExtTreeMap.mem_toList_iff_getElem?_eq_some.1 entry]
  rfl

/-- The words are listed in the order of the bytes of their names, none of which comes twice. -/
theorem pairwise_composites (d : Dictionary) :
    d.composites.Pairwise fun v w => Text.bytes v.name < Text.bytes w.name := by
  rw [composites, List.pairwise_map]
  refine Std.ExtTreeMap.ordered_keys_toList.imp ?_
  intro v w less
  exact Text.bytes_lt_bytes_iff.2 (compare_lt_iff_lt.1 less)

/-- No word is listed twice. -/
theorem nodup_composites (d : Dictionary) : d.composites.Nodup := by
  refine d.pairwise_composites.imp ?_
  rintro w _ less rfl
  exact List.lt_irrefl _ less

/-- The listing does not depend on how the table is kept: a table that hands its words out in any
order, each of them once, gives this listing when they are sorted by the bytes of their names. -/
theorem mergeSort_eq_composites (once : ws.Nodup)
    (table : ∀ w, w ∈ ws ↔ d.find? w.name = some w) :
    ws.mergeSort (fun v w => Text.bytes v.name ≤ Text.bytes w.name) = d.composites := by
  have same : ws.Perm d.composites := by
    rw [List.perm_ext_iff_of_nodup once d.nodup_composites]
    intro w
    rw [table, mem_composites_iff]
  have sorted := List.pairwise_mergeSort' (Order.Preimage (fun w => Text.bytes w.name) (· ≤ ·)) ws
  have listed := d.pairwise_composites.imp List.le_of_lt
  refine ((List.mergeSort_perm ws _).trans same).eq_of_pairwise ?_ sorted listed
  -- Words of one name are the same, since both are found under it.
  intro v w inTable inListing le ge
  have encoded : Text.bytes v.name = Text.bytes w.name := List.le_antisymm le ge
  have name : v.name = w.name := by
    rw [← Text.Utf8.decode_bytes v.name, encoded, Text.Utf8.decode_bytes]
  have found := (table v).1 (List.mem_mergeSort.1 inTable)
  rw [name] at found
  exact Option.some.inj (found.symm.trans (mem_composites_iff.1 inListing))

/-! ## The order of definitions -/

/-- If no name is defined twice, each definition is the last one. -/
theorem isLast_iff_of_nodup (nodup : (ws.map Composite.name).Nodup) :
    IsLast ws name w ↔ w ∈ ws ∧ w.name = name := by
  constructor
  · rintro ⟨earlier, later, rfl, own, -⟩
    exact ⟨List.mem_append_right earlier List.mem_cons_self, own⟩
  · rintro ⟨member, rfl⟩
    obtain ⟨earlier, later, rfl⟩ := List.append_of_mem member
    refine ⟨earlier, later, rfl, rfl, ?_⟩
    rw [List.map_append, List.map_cons] at nodup
    have apart := (List.nodup_cons.1 nodup.of_append_right).1
    intro v defined same
    exact apart (same ▸ List.mem_map_of_mem defined)

theorem ofList_of_perm (same : ws.Perm vs) (nodup : (ws.map Composite.name).Nodup) :
    ofList ws = ofList vs := by
  have nodup' : (vs.map Composite.name).Nodup := (same.map Composite.name).nodup_iff.1 nodup
  ext name w
  rw [find?_ofList_eq_some_iff, find?_ofList_eq_some_iff, isLast_iff_of_nodup nodup,
    isLast_iff_of_nodup nodup', same.mem_iff]

/-- A dictionary answers by the last definition under a name.

After any definitions, a name is bound to the last one under it; where there is none, to the native
word of this name, and where there is none either, to nothing. It is known exactly if it is bound. A
further definition answers the last one under its name, and touches no other name. The listing holds
the last definition of every name, in the strict order of the bytes of the names. Words of different
names can be defined in any order. -/
theorem answers_by_last_definition (ws : List Composite) :
    let d := empty.defineAll ws
    (∀ name,
      (∀ w, d.resolve? name = some (.composite w) ↔ IsLast ws name w) ∧
      (∀ n, d.resolve? name = some (.native n) ↔ (∀ w ∈ ws, w.name ≠ name) ∧ n.name = name) ∧
      (d.resolve? name = none ↔ (∀ w ∈ ws, w.name ≠ name) ∧ ∀ n : Native, n.name ≠ name) ∧
      (d.contains name = true ↔ (d.resolve? name).isSome = true)) ∧
    (∀ w,
      (∀ v, (d.define w).1 = some v ↔ IsLast ws w.name v) ∧
      ∀ name, w.name ≠ name → (d.define w).2.resolve? name = d.resolve? name) ∧
    (∀ w, w ∈ d.composites ↔ IsLast ws w.name w) ∧
    d.composites.Pairwise (fun v w => Text.bytes v.name < Text.bytes w.name) ∧
    ofList ws = d ∧
    ∀ vs, ws.Perm vs → (ws.map Composite.name).Nodup →
      (∀ name, (ofList ws).resolve? name = (ofList vs).resolve? name) ∧
      (∀ name, (ofList ws).contains name = (ofList vs).contains name) ∧
      (ofList ws).composites = (ofList vs).composites := by
  intro d
  have built : d = ofList ws := defineAll_empty ws
  rw [built]
  refine ⟨?_, ?_, ?_, pairwise_composites _, rfl, ?_⟩
  · intro name
    refine ⟨?_, ?_, ?_, contains_iff _ name⟩
    · intro w
      rw [resolve?_eq_composite_iff, find?_ofList_eq_some_iff]
    · intro n
      rw [resolve?_eq_native_iff, find?_ofList_eq_none_iff]
    · rw [resolve?_eq_none_iff, find?_ofList_eq_none_iff]
  · intro w
    refine ⟨?_, ?_⟩
    · intro v
      exact find?_ofList_eq_some_iff
    · intro name other
      exact resolve?_insert_of_ne other
  · intro w
    rw [mem_composites_iff, find?_ofList_eq_some_iff]
  · intro vs same nodup
    rw [ofList_of_perm same nodup]
    exact ⟨fun _ => rfl, fun _ => rfl, rfl⟩

/-- Two words, one of which hides a native word, in either order. -/
theorem answers_by_last_definition_of_two :
    let plus := Composite.define "+" "*"
    let square := Composite.define "sq" "dup *"
    [plus, square].Perm [square, plus] ∧ ([plus, square].map Composite.name).Nodup ∧
    (ofList [plus, square]).composites = (ofList [square, plus]).composites ∧
    (empty.defineAll [plus, square]).resolve? "+" = some (.composite plus) ∧
    ((empty.defineAll [plus, square]).define (.define "sq" "1")).1 = some square ∧
    ((empty.defineAll [plus, square]).define (.define "sq" "1")).2.resolve? "-" =
      some (.native .sub) := by
  intro plus square
  have swapped : [plus, square].Perm [square, plus] := List.Perm.swap square plus []
  have nodup : ([plus, square].map Composite.name).Nodup := by decide
  obtain ⟨bound, defines, -, -, -, reordered⟩ := answers_by_last_definition [plus, square]
  refine ⟨swapped, nodup, (reordered _ swapped nodup).2.2, ?_, ?_, ?_⟩
  · exact ((bound "+").1 plus).2 ⟨[], [square], rfl, rfl, by decide⟩
  · exact ((defines _).1 square).2 ⟨[plus], [], rfl, rfl, by simp⟩
  · rw [(defines _).2 "-" (by decide)]
    exact ((bound "-").2.1 .sub).2 ⟨by decide, rfl⟩

end Forth.Dictionary
