import Mathlib.Data.ENat.Lattice
import Mathlib.Order.CompletePartialOrder
import Mathlib.Data.Fintype.Card
import Mathlib.Logic.Relation
import Forth.Dictionary

/-!
# How deep composite words nest

A token that stands for a composite word gives way to the tokens of its body, which may give way
in turn. `nesting` is the length of the longest such descent: zero for a token that is left as it
is, and otherwise one more than the largest nesting in the body (`nesting_of_composite`). It is
infinite exactly if the descent can come back to where it was (`nesting_eq_top_iff`), since a
dictionary holds finitely many words.

Looking down a bounded number of levels is enough to compare the nesting with a number
(`nesting_le_iff_nestingUpTo`), so that comparison can be decided.
-/

namespace Forth

namespace Dictionary

/-- The token gives way to the body of a composite word. -/
def Expandable (d : Dictionary) (t : Token) : Prop := ∃ w, d.meaning t = .composite w

/-- The token `u` is in the body that `t` gives way to. -/
def Mentions (d : Dictionary) (t u : Token) : Prop :=
  ∃ w, d.meaning t = .composite w ∧ u ∈ w.tokens.toList

/-- How deep words nest under a token, as far as the given number of levels shows. -/
def nestingUpTo (d : Dictionary) : Nat → Token → Nat
  | 0, _ => 0
  | levels + 1, t =>
    match d.meaning t with
    | .composite w => w.tokens.toList.toFinset.sup (d.nestingUpTo levels) + 1
    | _ => 0

/-- How deep words nest under a token. -/
noncomputable def nesting (d : Dictionary) (t : Token) : ℕ∞ :=
  ⨆ levels, (d.nestingUpTo levels t : ℕ∞)

variable {d : Dictionary} {t u : Token} {w : Composite}

theorem nestingUpTo_of_composite (h : d.meaning t = .composite w) (levels : Nat) :
    d.nestingUpTo (levels + 1) t = w.tokens.toList.toFinset.sup (d.nestingUpTo levels) + 1 := by
  rw [nestingUpTo, h]

theorem nestingUpTo_of_not_expandable (h : ¬ d.Expandable t) (levels : Nat) :
    d.nestingUpTo levels t = 0 := by
  cases levels with
  | zero => rfl
  | succ levels =>
    rw [nestingUpTo]
    split
    next w stands => exact absurd ⟨w, stands⟩ h
    next => rfl

theorem nesting_le_iff {n : Nat} : d.nesting t ≤ n ↔ ∀ levels, d.nestingUpTo levels t ≤ n := by
  simp only [nesting, iSup_le_iff, Nat.cast_le]

theorem nesting_of_not_expandable (h : ¬ d.Expandable t) : d.nesting t = 0 := by
  refine le_antisymm (nesting_le_iff.2 ?_) bot_le
  intro levels
  rw [nestingUpTo_of_not_expandable h]

/-- A word nests one level deeper than everything in its body. -/
theorem nesting_le_succ_iff (h : d.meaning t = .composite w) {n : Nat} :
    d.nesting t ≤ (n + 1 : Nat) ↔ ∀ u ∈ w.tokens.toList, d.nesting u ≤ n := by
  constructor
  · intro bound u member
    refine nesting_le_iff.2 fun levels => ?_
    have deeper := nesting_le_iff.1 bound (levels + 1)
    rw [nestingUpTo_of_composite h, Nat.add_le_add_iff_right, Finset.sup_le_iff] at deeper
    exact deeper u (List.mem_toFinset.2 member)
  · intro bound
    refine nesting_le_iff.2 fun levels => ?_
    cases levels with
    | zero => exact Nat.zero_le _
    | succ levels =>
      rw [nestingUpTo_of_composite h, Nat.add_le_add_iff_right, Finset.sup_le_iff]
      intro u member
      exact nesting_le_iff.1 (bound u (List.mem_toFinset.1 member)) levels

theorem not_nesting_le_zero (h : d.meaning t = .composite w) : ¬ d.nesting t ≤ (0 : Nat) := by
  intro bound
  have one := nesting_le_iff.1 bound 1
  rw [nestingUpTo_of_composite h] at one
  omega

/-- The nesting of a word is one more than the largest in its body. -/
theorem nesting_of_composite (h : d.meaning t = .composite w) :
    d.nesting t = w.tokens.toList.toFinset.sup d.nesting + 1 := by
  apply le_antisymm
  · cases largest : w.tokens.toList.toFinset.sup d.nesting with
    | top => exact le_top
    | coe n =>
      refine (nesting_le_succ_iff h).2 fun u member => ?_
      rw [← largest]
      exact Finset.le_sup (List.mem_toFinset.2 member)
  · cases depth : d.nesting t with
    | top => exact le_top
    | coe n =>
      cases n with
      | zero => exact absurd depth.le (not_nesting_le_zero h)
      | succ n =>
        have bound := (nesting_le_succ_iff h).1 depth.le
        rw [Nat.cast_succ]
        refine add_le_add_left (Finset.sup_le fun u member => ?_) 1
        exact bound u (List.mem_toFinset.1 member)

/-- A word nests deeper than any token of its body. -/
theorem nesting_add_one_le (h : d.Mentions t u) : d.nesting u + 1 ≤ d.nesting t := by
  obtain ⟨w, stands, member⟩ := h
  rw [nesting_of_composite stands]
  exact add_le_add_left (Finset.le_sup (List.mem_toFinset.2 member)) 1

theorem nesting_add_one_le_of_transGen (h : Relation.TransGen d.Mentions t u) :
    d.nesting u + 1 ≤ d.nesting t := by
  induction h with
  | single mentions => exact nesting_add_one_le mentions
  | tail _ mentions ih =>
    calc d.nesting _ + 1
        ≤ d.nesting _ := nesting_add_one_le mentions
      _ ≤ d.nesting _ + 1 := le_self_add
      _ ≤ d.nesting t := ih

/-- A token that comes back to itself never stops nesting. -/
theorem nesting_eq_top_of_cycle (h : Relation.TransGen d.Mentions t t) : d.nesting t = ⊤ := by
  have deeper := nesting_add_one_le_of_transGen h
  cases depth : d.nesting t with
  | top => rfl
  | coe n =>
    rw [depth] at deeper
    exact absurd deeper (by norm_cast; omega)

/-- There are only as many expandable tokens as composite words. -/
theorem finite_expandable (d : Dictionary) : {t | d.Expandable t}.Finite := by
  refine ((d.composites.map Composite.name).toFinset.finite_toSet).subset ?_
  rintro t ⟨w, stands⟩
  have found := find?_of_meaning stands
  rw [Finset.mem_coe, List.mem_toFinset]
  exact List.mem_map.2 ⟨w, mem_composites found, name_of_find? found⟩

/-- The expandable tokens that a descent from `t` comes to. -/
def below (d : Dictionary) (t : Token) : Set Token :=
  {u | Relation.ReflTransGen d.Mentions t u ∧ d.Expandable u}

/-- Descending is well-founded where it never comes back: there are finitely many places. -/
theorem wellFounded_below (acyclic : ∀ u ∈ d.below t, ¬ Relation.TransGen d.Mentions u u) :
    WellFounded fun u v : d.below t => Relation.TransGen d.Mentions v.1 u.1 := by
  have : Finite (d.below t) := (d.finite_expandable.subset fun _ member => member.2).to_subtype
  have : IsTrans (d.below t) fun u v => Relation.TransGen d.Mentions v.1 u.1 :=
    ⟨fun _ _ _ first second => second.trans first⟩
  have : Std.Irrefl fun u v : d.below t => Relation.TransGen d.Mentions v.1 u.1 :=
    ⟨fun u => acyclic u.1 u.2⟩
  exact Finite.wellFounded_of_trans_of_irrefl _

/-- A body is finite, so a word nests forever only if a token of its body does. -/
theorem nesting_ne_top_of_mentions (h : ∀ u, d.Mentions t u → d.nesting u ≠ ⊤) :
    d.nesting t ≠ ⊤ := by
  by_cases expandable : d.Expandable t
  · obtain ⟨w, stands⟩ := expandable
    rw [nesting_of_composite stands]
    refine WithTop.add_ne_top.2 ⟨?_, ENat.natCast_ne_top 1⟩
    refine ((Finset.sup_lt_iff (bot_lt_top : (⊥ : ℕ∞) < ⊤)).2 ?_).ne
    intro u member
    exact (h u ⟨w, stands, List.mem_toFinset.1 member⟩).lt_top
  · rw [nesting_of_not_expandable expandable]
    exact ENat.zero_ne_top

/-- Where no descent comes back to itself, nesting is finite. -/
theorem nesting_ne_top_of_acyclic
    (acyclic : ∀ u ∈ d.below t, ¬ Relation.TransGen d.Mentions u u) : d.nesting t ≠ ⊤ := by
  -- The token `t` itself need not be expandable, so the induction runs over those below it.
  have finite : ∀ u : d.below t, d.nesting u.1 ≠ ⊤ := by
    intro u
    induction u using (wellFounded_below acyclic).induction with
    | _ u ih =>
      refine nesting_ne_top_of_mentions fun v mentions => ?_
      by_cases expandable : d.Expandable v
      · exact ih ⟨v, u.2.1.tail mentions, expandable⟩ (.single mentions)
      · rw [nesting_of_not_expandable expandable]
        exact ENat.zero_ne_top
  by_cases expandable : d.Expandable t
  · exact finite ⟨t, .refl, expandable⟩
  · rw [nesting_of_not_expandable expandable]
    exact ENat.zero_ne_top

/-- Nesting is infinite exactly if a cycle can be reached. -/
theorem nesting_eq_top_iff :
    d.nesting t = ⊤ ↔
      ∃ u, Relation.ReflTransGen d.Mentions t u ∧ Relation.TransGen d.Mentions u u := by
  constructor
  · intro infinite
    by_contra acyclic
    exact nesting_ne_top_of_acyclic (fun u member cycle => acyclic ⟨u, member.1, cycle⟩) infinite
  · rintro ⟨u, reached, cycle⟩
    rcases Relation.reflTransGen_iff_eq_or_transGen.1 reached with rfl | descent
    · exact nesting_eq_top_of_cycle cycle
    · have deeper := nesting_add_one_le_of_transGen descent
      rw [nesting_eq_top_of_cycle cycle] at deeper
      exact top_le_iff.1 deeper

/-- As many levels as the bound, and one more, decide whether it holds. -/
theorem nesting_le_iff_nestingUpTo {n : Nat} : d.nesting t ≤ n ↔ d.nestingUpTo (n + 1) t ≤ n := by
  constructor
  · intro bound
    exact nesting_le_iff.1 bound (n + 1)
  intro bound
  induction n generalizing t with
  | zero =>
    by_cases expandable : d.Expandable t
    · obtain ⟨w, stands⟩ := expandable
      rw [nestingUpTo_of_composite stands] at bound
      omega
    · exact (nesting_of_not_expandable expandable).le
  | succ n ih =>
    by_cases expandable : d.Expandable t
    · obtain ⟨w, stands⟩ := expandable
      rw [nestingUpTo_of_composite stands, Nat.add_le_add_iff_right, Finset.sup_le_iff] at bound
      exact (nesting_le_succ_iff stands).2 fun u member => ih (bound u (List.mem_toFinset.2 member))
    · rw [nesting_of_not_expandable expandable]
      exact bot_le

instance (d : Dictionary) (t : Token) (n : Nat) : Decidable (d.nesting t ≤ n) :=
  decidable_of_iff _ nesting_le_iff_nestingUpTo.symm

end Dictionary

end Forth
