import Mathlib
import Forth.Dictionary.Listing
import Forth.Proofs.Definitions
import Forth.Proofs.Invocation
import Forth.Proofs.Splitting

/-!
# The lines of the listing

The listing is made of entries, one for each heading and each word, and every entry is ended by a
newline. The name and the body of a composite word stand in its entry as they are, and neither the
check of a configuration nor the listing looks for newlines in them. So the lines of the listing are
the lines of the entries (`Dictionary.splitOn_listing`), and every word has one line exactly if no
name and no body goes over several lines.
-/

namespace Forth

namespace Dictionary

/-- The entry of a word. -/
def entry (name text : String) : List Char :=
  ' ' :: ' ' :: (name.toList ++ List.replicate (8 - name.length) ' ' ++ ' ' :: text.toList)

def nativeEntries : List (List Char) :=
  "Native words:".toList :: Native.all.map fun w => entry w.name w.effect.picture

/-- There is no heading without words under it. -/
def compositeEntries : List Composite → List (List Char)
  | [] => []
  | ws => "Composite words:".toList :: ws.map fun w => entry w.name w.body.text

def entries (d : Dictionary) : List (List Char) :=
  nativeEntries ++ compositeEntries d.composites

/-- How many newlines the name and the body hold. -/
def newlines (w : Composite) : Nat :=
  w.name.toList.count '\n' + w.body.text.toList.count '\n'

/-! ## Entries -/

theorem toList_listingLine (name text : String) :
    (listingLine name text).toList = entry name text ++ ['\n'] := by
  simp [listingLine, entry]

theorem prefix_entry (name text : String) :
    ' ' :: ' ' :: name.toList <+: entry name text := by
  simp [entry, List.append_assoc]

theorem count_entry (w : Composite) : (entry w.name w.body.text).count '\n' = newlines w := by
  simp [entry, newlines, List.count_append, List.count_replicate]

/-- Every entry is ended by a newline. -/
theorem toList_listing (d : Dictionary) :
    d.listing.toList = d.entries.flatMap (· ++ ['\n']) := by
  have native : ("Native words:\n" ++ nativeListing).toList =
      nativeEntries.flatMap (· ++ ['\n']) := by
    simp [nativeListing, nativeEntries, String.toList_join, List.flatMap_map, toList_listingLine]
  have composite (w : Composite) (ws : List Composite) :
      ("Composite words:\n" ++ compositeListing (w :: ws)).toList =
        (compositeEntries (w :: ws)).flatMap (· ++ ['\n']) := by
    simp [compositeListing, compositeEntries, String.toList_join, List.flatMap_map,
      toList_listingLine]
  rw [listing, String.toList_append, native, entries, List.flatMap_append]
  cases d.composites with
  | nil => rfl
  | cons w ws => exact congrArg _ (composite w ws)

theorem length_entries (d : Dictionary) :
    d.entries.length = 11 + if d.composites = [] then 0 else 1 + d.composites.length := by
  rw [entries, List.length_append]
  cases d.composites with
  | nil => rfl
  | cons w ws => simp [compositeEntries, nativeEntries, Native.all]; omega

theorem sum_count_entries (d : Dictionary) :
    (d.entries.map (List.count '\n')).sum = (d.composites.map newlines).sum := by
  have native : (nativeEntries.map (List.count '\n')).sum = 0 := by decide
  rw [entries, List.map_append, List.sum_append, native, Nat.zero_add]
  cases d.composites with
  | nil => rfl
  | cons w ws =>
    have heading : "Composite words:".toList.count '\n' = 0 := by decide
    rw [compositeEntries, List.map_cons, List.sum_cons, heading, Nat.zero_add, List.map_map]
    · exact congrArg List.sum (List.map_congr_left fun w _ => count_entry w)
    · exact List.cons_ne_nil w ws

/-! ## Lines -/

/-- The lines of the listing are those of its entries, and nothing is left after the last one. -/
theorem splitOn_listing (d : Dictionary) :
    d.listing.toList.splitOn '\n' = d.entries.flatMap (·.splitOn '\n') ++ [[]] := by
  rw [toList_listing, Text.splitOn_flatMap]

/-- The entries are the lines exactly if there are no newlines in them. -/
theorem flatMap_splitOn_entries_iff (d : Dictionary) :
    d.entries.flatMap (·.splitOn '\n') = d.entries ↔ (d.composites.map newlines).sum = 0 := by
  rw [← sum_count_entries]
  constructor
  · intro same
    have lengths := Text.length_flatMap_splitOn '\n' d.entries
    rw [same] at lengths
    omega
  · intro plain
    refine Text.flatMap_splitOn_of_not_mem fun e member => List.count_eq_zero.1 ?_
    exact List.sum_eq_zero_iff.1 plain _ (List.mem_map_of_mem member)

end Dictionary

namespace Config

/-- No name and no body of a word goes over several lines. -/
def OneLine (c : Config) : Prop :=
  ∀ (name body : String), c.words[name]? = some body →
    '\n' ∉ name.toList ∧ '\n' ∉ body.toList

/-- The dictionary lists the words of the configuration. -/
theorem composites_dictionary (c : Config) : c.dictionary.composites = c.composites := by
  let less (v w : Composite) : Prop := v.name < w.name
  have : Std.Irrefl less := ⟨fun w => lt_irrefl w.name⟩
  have : Std.Antisymm less := ⟨fun v w before after => absurd before (lt_asymm after)⟩
  have listed : c.dictionary.composites.Pairwise less :=
    c.dictionary.pairwise_composites.imp Text.bytes_lt_bytes_iff.1
  have given : c.composites.Pairwise less := by
    rw [composites, List.pairwise_map]
    exact Std.ExtTreeMap.ordered_keys_toList.imp compare_lt_iff_lt.1
  refine listed.eq_of_mem_iff given fun w => ?_
  rw [Dictionary.mem_composites_iff, find?_dictionary, Option.map_eq_some_iff, composites,
    List.mem_map]
  constructor
  · rintro ⟨body, entry, defined⟩
    exact ⟨(w.name, body), Std.ExtTreeMap.mem_toList_iff_getElem?_eq_some.2 entry, defined⟩
  · rintro ⟨⟨name, body⟩, entry, rfl⟩
    exact ⟨body, Std.ExtTreeMap.mem_toList_iff_getElem?_eq_some.1 entry, rfl⟩

theorem oneLine_iff (c : Config) :
    c.OneLine ↔ (c.composites.map Dictionary.newlines).sum = 0 := by
  rw [composites, List.map_map, List.sum_eq_zero_iff]
  simp only [List.forall_mem_map, Prod.forall, Std.ExtTreeMap.mem_toList_iff_getElem?_eq_some]
  refine forall₃_congr fun name body entry => ?_
  show _ ↔ name.toList.count '\n' + body.toList.count '\n' = 0
  rw [Nat.add_eq_zero_iff, List.count_eq_zero, List.count_eq_zero]

/-- The listing has an entry for the heading of the native words and for each of them, and, if there
are composite words, one for their heading and for each of them, in ascending order of name. An
entry has one line and another one for each newline in the name and in the body. So every word has
one line, and the number of lines depends on the number of words alone, exactly if no name and no
body goes over several lines. -/
theorem oneLine_iff_listing (c : Config) :
    let d := c.interpreter.dictionary
    let lines := d.listing.toList.splitOn '\n'
    d.composites = c.words.toList.map (fun (name, body) => .define name body) ∧
    d.composites.Pairwise (fun v w => Text.bytes v.name < Text.bytes w.name) ∧
    (∀ w ∈ d.composites, ' ' :: ' ' :: w.name.toList <+: Dictionary.entry w.name w.body.text) ∧
    lines = d.entries.flatMap (·.splitOn '\n') ++ [[]] ∧
    d.entries.length = 11 + (if d.composites = [] then 0 else 1 + d.composites.length) ∧
    lines.length = d.entries.length + (d.composites.map Dictionary.newlines).sum + 1 ∧
    (c.OneLine ↔ lines = d.entries ++ [[]]) ∧
    (c.OneLine ↔ lines.length = d.entries.length + 1) := by
  intro d lines
  have composites : d.composites = c.composites := c.composites_dictionary
  have cut : lines = d.entries.flatMap (·.splitOn '\n') ++ [[]] := d.splitOn_listing
  have length :
      lines.length = d.entries.length + (d.composites.map Dictionary.newlines).sum + 1 := by
    rw [cut, List.length_append, Text.length_flatMap_splitOn, Dictionary.sum_count_entries,
      List.length_singleton]
  refine ⟨composites, d.pairwise_composites, fun w _ => Dictionary.prefix_entry _ _, cut,
    d.length_entries, length, ?_, ?_⟩
  · rw [cut, List.append_left_inj, Dictionary.flatMap_splitOn_entries_iff, composites, oneLine_iff]
  · rw [length, composites, oneLine_iff]
    omega

/-- A word that is accepted has two lines, the second of which does not show its name. -/
theorem listing_of_broken_body :
    (withWord "a" "1\n2").validate = .ok () ∧ (withWord "a" "1\n2").words.size = 1 ∧
    ((withWord "a" "1\n2").interpreter.dictionary.listing.toList.splitOn '\n').drop 11 =
      ["Composite words:".toList, "  a        1".toList, "2".toList, []] := by
  have listed : (withWord "a" "1\n2").interpreter.dictionary.composites = [.define "a" "1\n2"] := by
    cbv
  refine ⟨by rfl, by decide, ?_⟩
  rw [Dictionary.splitOn_listing, Dictionary.entries, listed]
  decide

end Config

end Forth
