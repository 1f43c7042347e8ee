/-!
# Readers

A reader takes a value off the front of a text, or refuses the text. One that succeeds has
taken something, so that a loop of readers ends with the text. A skip takes what carries no
value (blanks, comments, punctuation) and may take nothing.

Larger readers are put together from smaller ones, and each way of putting them together
keeps these two promises.
-/

namespace Forth.Toml

structure Skip where
  skip : List Char → Option (List Char)
  le : ∀ {s rest}, skip s = some rest → rest.length ≤ s.length

structure Reader (α : Type) where
  read : List Char → Option (α × List Char)
  shorter : ∀ {s a rest}, read s = some (a, rest) → rest.length < s.length

theorem length_dropWhile_le (p : Char → Bool) (s : List Char) :
    (s.dropWhile p).length ≤ s.length :=
  (List.dropWhile_suffix p).length_le

namespace Skip

/-- Skips the longest run of such characters, which may be empty. -/
def run (p : Char → Bool) : Skip where
  skip s := some (s.dropWhile p)
  le {s rest} h := by
    obtain rfl := Option.some.inj h
    exact length_dropWhile_le p s

/-- The rest of the second text after the first, if it starts with that. -/
def strip : List Char → List Char → Option (List Char)
  | [], s => some s
  | _ :: _, [] => none
  | c :: cs, d :: s => if c == d then strip cs s else none

theorem length_strip {cs s rest : List Char} (h : strip cs s = some rest) :
    rest.length ≤ s.length := by
  fun_induction strip cs s <;> grind

/-- Skips exactly these characters. -/
def exactly (cs : List Char) : Skip where
  skip := strip cs
  le := length_strip

/-- One skip after the other. -/
def followedBy (k l : Skip) : Skip where
  skip s := (k.skip s).bind l.skip
  le {s rest} h := by
    obtain ⟨t, ht, hr⟩ := Option.bind_eq_some_iff.1 h
    exact Nat.le_trans (l.le hr) (k.le ht)

end Skip

namespace Reader

variable {α β : Type}

/-- Reads a value and makes another one of it, or refuses it. -/
def filterMap (p : Reader α) (f : α → Option β) : Reader β where
  read s := (p.read s).bind fun (a, rest) => (f a).map (·, rest)
  shorter {s b rest} h := by
    obtain ⟨⟨a, t⟩, ht, hb⟩ := Option.bind_eq_some_iff.1 h
    obtain ⟨_, -, heq⟩ := Option.map_eq_some_iff.1 hb
    obtain rfl := (Prod.ext_iff.1 heq).2
    exact p.shorter ht

def map (p : Reader α) (f : α → β) : Reader β :=
  p.filterMap fun a => some (f a)

/-- The second reader reads what the first one refuses. -/
def orElse (p q : Reader α) : Reader α where
  read s := (p.read s).or (q.read s)
  shorter {s a rest} h := by
    rcases Option.or_eq_some_iff.1 h with h | ⟨-, h⟩
    · exact p.shorter h
    · exact q.shorter h

/-- Reads with the first reader, and goes on with a second that depends on the value. -/
def andThen (p : Reader α) (q : α → Reader β) : Reader β where
  read s := (p.read s).bind fun (a, rest) => (q a).read rest
  shorter {s b rest} h := by
    obtain ⟨⟨a, t⟩, ht, hb⟩ := Option.bind_eq_some_iff.1 h
    exact Nat.lt_trans ((q a).shorter hb) (p.shorter ht)

def after (p : Reader α) (k : Skip) : Reader α where
  read s := (k.skip s).bind p.read
  shorter {s a rest} h := by
    obtain ⟨t, ht, ha⟩ := Option.bind_eq_some_iff.1 h
    exact Nat.lt_of_lt_of_le (p.shorter ha) (k.le ht)

def before (p : Reader α) (k : Skip) : Reader α where
  read s := (p.read s).bind fun (a, rest) => (k.skip rest).map (a, ·)
  shorter {s a rest} h := by
    obtain ⟨⟨a, t⟩, ht, hb⟩ := Option.bind_eq_some_iff.1 h
    obtain ⟨_, hk, heq⟩ := Option.map_eq_some_iff.1 hb
    obtain rfl := (Prod.ext_iff.1 heq).2
    exact Nat.lt_of_le_of_lt (k.le hk) (p.shorter ht)

/-- Reads the longest run of such characters, which may not be empty. -/
def run (p : Char → Bool) : Reader (List Char) where
  read s := if (s.takeWhile p).isEmpty then none else some (s.takeWhile p, s.dropWhile p)
  shorter {s a rest} h := by
    have split := congrArg List.length (List.takeWhile_append_dropWhile (p := p) (l := s))
    cases hp : s.takeWhile p with
    | nil => simp [hp] at h
    | cons c cs =>
      obtain ⟨-, rfl⟩ := by simpa [hp] using h
      simp only [hp, List.length_append, List.length_cons] at split
      omega

/-! ## Items between separators -/

set_option linter.unusedVariables false in
/-- Reads items as far as it can, with a separator between any two and gaps anywhere. The
answer says too whether a separator came last. -/
def items (sep : Char) (gap : Skip) (item : Reader α) (acc : List α) (s : List Char) :
    List α × Bool × List Char :=
  match h : (item.after gap).read s with
  | none => (acc.reverse, !acc.isEmpty, s)
  | some (a, rest) =>
    match h' : (gap.followedBy (.exactly [sep])).skip rest with
    | none => ((a :: acc).reverse, false, rest)
    | some s => items sep gap item (a :: acc) s
termination_by s.length
decreasing_by
  exact Nat.lt_of_le_of_lt ((gap.followedBy (.exactly [sep])).le h') ((item.after gap).shorter h)

theorem length_items_le (sep : Char) (gap : Skip) (item : Reader α) (acc : List α)
    (s : List Char) : (items sep gap item acc s).2.2.length ≤ s.length := by
  fun_induction items sep gap item acc s with
  | case1 => exact Nat.le_refl _
  | case2 acc s a rest h => exact Nat.le_of_lt ((item.after gap).shorter h)
  | case3 acc s a rest h t h' ih =>
    have := (item.after gap).shorter h
    have := (gap.followedBy (.exactly [sep])).le h'
    omega

/-- Reads one item or more. -/
def chain (sep : Char) (gap : Skip) (item : Reader α) : Reader (List α) where
  read s :=
    match (item.after gap).read s with
    | none => none
    | some (a, t) =>
      match (gap.followedBy (.exactly [sep])).skip t with
      | none => some ([a], t)
      | some t =>
        match items sep gap item [a] t with
        | (as, false, rest) => some (as, rest)
        | (_, true, _) => none
  shorter {s as rest} h := by
    split at h
    · simp at h
    · next a t ha =>
      have := (item.after gap).shorter ha
      split at h
      · obtain ⟨-, rfl⟩ := by simpa using h
        exact this
      · next u hu =>
        have := (gap.followedBy (.exactly [sep])).le hu
        have le := length_items_le sep gap item [a] u
        split at h
        · next hi =>
          obtain ⟨-, rfl⟩ := by simpa using h
          simp only [hi] at le
          omega
        · simp at h

/-- Reads any number of items up to what closes them, and says whether a separator came
last. -/
def enclosed (sep : Char) (gap : Skip) (item : Reader α) (closing : Char) :
    Reader (List α × Bool) where
  read s :=
    match items sep gap item [] s with
    | (as, trailing, t) =>
      match gap.skip t with
      | some (c :: rest) => if c == closing then some ((as, trailing), rest) else none
      | _ => none
  shorter {s as rest} h := by
    have le := length_items_le sep gap item [] s
    generalize items sep gap item [] s = result at h le
    obtain ⟨xs, trailing, t⟩ := result
    simp only at h le
    split at h
    · next c u hu =>
      have := gap.le hu
      split at h
      · obtain ⟨-, rfl⟩ := by simpa using h
        simp only [List.length_cons] at this
        omega
      · simp at h
    · simp at h

end Reader

end Forth.Toml
