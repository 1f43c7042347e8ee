import Mathlib
import Forth.Text.Blank
import Forth.Text.Lines

/-!
# Where the characters of a line come from

A character in the making is a range of numbers: those that the bytes still to come can make of it.
The first byte leaves a range without surrogates and without ASCII (`Utf8.cases_of_start`), every
other byte narrows it (`Utf8.Pending.narrow`), and the last one picks a number from it
(`Utf8.cases_of_step`). So a character of ASCII is never made of several bytes: it was a byte of its
own (`Utf8.exists_byte_of_mem_decode`), and no line has a newline in it, whatever the bytes
(`Lines.newline_not_mem_ofBytes`).

A byte of ASCII breaks off whatever is pending before it. So bytes can be cut there before they are
decoded or after, with the same result (`Utf8.toList_decode_append_ascii`).
-/

namespace Forth.Text

namespace Utf8

/-- The characters that come of bytes when something is pending before them. -/
def charsFrom : Option Pending → List UInt8 → List Char
  | p, [] => finish p
  | p, b :: bs => (step p b).1 ++ charsFrom (step p b).2 bs

theorem toList_foldl_push (s : String) (cs : List Char) :
    (cs.foldl String.push s).toList = s.toList ++ cs := by
  induction cs generalizing s with
  | nil => simp
  | cons c cs ih => simp [ih]

theorem toList_decode (bytes : List UInt8) : (decode bytes).toList = charsFrom none bytes := by
  have fed (d : Decoder) :
      ((finish (bytes.foldl Decoder.feed d).pending).foldl String.push
        (bytes.foldl Decoder.feed d).text).toList = d.text.toList ++ charsFrom d.pending bytes := by
    induction bytes generalizing d with
    | nil => exact toList_foldl_push d.text (finish d.pending)
    | cons b bs ih =>
      rw [List.foldl_cons, ih, charsFrom, ← List.append_assoc]
      exact congrArg (· ++ _) (toList_foldl_push d.text (step d.pending b).1)
  exact fed ⟨none, ""⟩

namespace Pending

/-- The least number that can come of what is pending. -/
def least (p : Pending) : Nat := (p.bits * 64 + (p.low.toNat - 0x80)) * 64 ^ p.later

/-- The number after the greatest that can come of it. -/
def bound (p : Pending) : Nat := (p.bits * 64 + (p.high.toNat - 0x80) + 1) * 64 ^ p.later

/-- The numbers that can come of what is pending are those of characters, and none is in ASCII. -/
structure WellFormed (p : Pending) : Prop where
  beyond : 0x80 ≤ p.least
  scalar : p.bound ≤ 0xD800 ∨ 0xE000 ≤ p.least ∧ p.bound ≤ 0x110000

/-- What the next byte adds to the bits. -/
theorem narrow {p : Pending} {b : UInt8} (low : p.low ≤ b) (high : b ≤ p.high) :
    p.least ≤ (p.bits * 64 + (b.toNat - 0x80)) * 64 ^ p.later ∧
      (p.bits * 64 + (b.toNat - 0x80) + 1) * 64 ^ p.later ≤ p.bound := by
  rw [UInt8.le_iff_toNat_le] at low high
  constructor
  · exact Nat.mul_le_mul_right _ (by omega)
  · exact Nat.mul_le_mul_right _ (by omega)

/-- Where the next byte can be any continuation byte, all numbers with the given bits can come. -/
theorem least_of_any (bits later : Nat) :
    least ⟨bits, later, 0x80, 0xBF⟩ = bits * 64 ^ (later + 1) := by
  have noneAdded : (0x80 : UInt8).toNat - 0x80 = 0 := rfl
  rw [least, noneAdded, pow_succ']
  ring

theorem bound_of_any (bits later : Nat) :
    bound ⟨bits, later, 0x80, 0xBF⟩ = (bits + 1) * 64 ^ (later + 1) := by
  have allAdded : (0xBF : UInt8).toNat - 0x80 = 63 := rfl
  rw [bound, allAdded, pow_succ']
  ring

/-- A range within the range of something well formed is well formed. -/
theorem WellFormed.mono {p q : Pending} (h : p.WellFormed) (least : p.least ≤ q.least)
    (bound : q.bound ≤ p.bound) : q.WellFormed := by
  constructor
  · exact Nat.le_trans h.beyond least
  · rcases h.scalar with below | ⟨above, within⟩
    · exact .inl (Nat.le_trans bound below)
    · exact .inr ⟨Nat.le_trans above least, Nat.le_trans bound within⟩

end Pending

variable {b : UInt8} {bs : List UInt8} {c : Char} {p q : Pending} {o : Option Pending}

/-- A byte with nothing pending before it is a character of ASCII, begins another character, or can
begin nothing. -/
theorem cases_of_start (b : UInt8) :
    (b.toNat < 0x80 ∧ start b = ([Char.ofNat b.toNat], none)) ∨
      (∃ p : Pending, p.WellFormed ∧ start b = ([], some p)) ∨
      start b = ([replacement], none) := by
  dsimp only [start]
  split
  next ascii => exact .inl ⟨ascii, rfl⟩
  repeat' split
  all_goals try exact .inr (.inr rfl)
  -- What is left are the leading bytes of two, three and four.
  all_goals
    refine .inr (.inl ⟨_, ?_, rfl⟩)
    constructor
    all_goals
      simp only [Pending.least, Pending.bound, UInt8.reduceToNat, Nat.reducePow, Nat.reduceSub]
      omega

/-- Where something is pending, a byte completes a character past ASCII, goes on with it, or breaks
it off and is looked at anew. -/
theorem cases_of_step (formed : p.WellFormed) (b : UInt8) :
    (∃ n : Nat, n.isValidChar ∧ 0x80 ≤ n ∧ step (some p) b = ([Char.ofNat n], none)) ∨
      (∃ q : Pending, q.WellFormed ∧ step (some p) b = ([], some q)) ∨
      step (some p) b = (replacement :: (start b).1, (start b).2) := by
  by_cases inRange : p.low ≤ b ∧ b ≤ p.high
  · obtain ⟨least, bound⟩ := Pending.narrow inRange.1 inRange.2
    have beyond := formed.beyond
    cases later : p.later with
    | zero =>
      simp only [later, pow_zero, mul_one] at least bound
      refine .inl ⟨p.bits * 64 + (b.toNat - 0x80), ?_, Nat.le_trans beyond least, ?_⟩
      · rcases formed.scalar with below | ⟨above, within⟩
        · exact .inl (Nat.lt_of_lt_of_le (Nat.lt_of_succ_le bound) below)
        · exact .inr ⟨by omega, by omega⟩
      · simp only [step, if_pos inRange, later]
    | succ more =>
      refine .inr (.inl ⟨⟨p.bits * 64 + (b.toNat - 0x80), more, 0x80, 0xBF⟩, ?_, ?_⟩)
      · rw [later] at least bound
        apply formed.mono
        · rw [Pending.least_of_any]
          exact least
        · rw [Pending.bound_of_any]
          exact bound
      · simp only [step, if_pos inRange, later]
  · exact .inr (.inr (by simp only [step, if_neg inRange]))

theorem wellFormed_of_step (before : ∀ p ∈ o, p.WellFormed) (h : (step o b).2 = some q) :
    q.WellFormed := by
  have startFormed (h : (start b).2 = some q) : q.WellFormed := by
    obtain ⟨-, did⟩ | ⟨p, formed, did⟩ | did := cases_of_start b
    · rw [did] at h
      cases h
    · rw [did] at h
      cases h
      exact formed
    · rw [did] at h
      cases h
  cases o with
  | none => exact startFormed h
  | some p =>
    obtain ⟨n, -, -, did⟩ | ⟨q', formed, did⟩ | did := cases_of_step (before p rfl) b
    · rw [did] at h
      cases h
    · rw [did] at h
      cases h
      exact formed
    · rw [did] at h
      exact startFormed h

theorem toNat_replacement : replacement.toNat = 0xFFFD := rfl

/-- The only character of ASCII that a byte can make is the one with its number. -/
theorem eq_of_mem_step (before : ∀ p ∈ o, p.WellFormed) (h : c ∈ (step o b).1)
    (ascii : c.toNat < 0x80) : c.toNat = b.toNat := by
  have other : c ≠ replacement := by
    rintro rfl
    rw [toNat_replacement] at ascii
    omega
  have startEq (h : c ∈ (start b).1) : c.toNat = b.toNat := by
    obtain ⟨small, did⟩ | ⟨p, -, did⟩ | did := cases_of_start b
    · rw [did, List.mem_singleton] at h
      rw [h, Char.toNat_ofNat, if_pos (.inl (Nat.lt_trans small (by decide)))]
    · rw [did] at h
      cases h
    · rw [did, List.mem_singleton] at h
      exact absurd h other
  cases o with
  | none => exact startEq h
  | some p =>
    obtain ⟨n, valid, beyond, did⟩ | ⟨q, -, did⟩ | did := cases_of_step (before p rfl) b
    · rw [did, List.mem_singleton] at h
      rw [h, Char.toNat_ofNat, if_pos valid] at ascii
      omega
    · rw [did] at h
      cases h
    · rw [did] at h
      rcases List.mem_cons.1 h with replaced | h
      · exact absurd replaced other
      · exact startEq h

theorem exists_byte_of_mem_charsFrom (before : ∀ p ∈ o, p.WellFormed) (h : c ∈ charsFrom o bs)
    (ascii : c.toNat < 0x80) : ∃ b ∈ bs, b.toNat = c.toNat := by
  induction bs generalizing o with
  | nil =>
    cases o with
    | none => cases h
    | some p =>
      rw [charsFrom, finish, List.mem_singleton] at h
      rw [h, toNat_replacement] at ascii
      omega
  | cons b bs ih =>
    rw [charsFrom, List.mem_append] at h
    rcases h with now | later
    · exact ⟨b, List.mem_cons_self, (eq_of_mem_step before now ascii).symm⟩
    · obtain ⟨b', member, same⟩ := ih (fun q pending => wellFormed_of_step before pending) later
      exact ⟨b', List.mem_cons_of_mem b member, same⟩

/-- A character of ASCII in a decoded text was a byte. -/
theorem exists_byte_of_mem_decode (h : c ∈ (decode bs).toList) (ascii : c.toNat < 0x80) :
    ∃ b ∈ bs, b.toNat = c.toNat := by
  have nothingPending : ∀ p ∈ (none : Option Pending), p.WellFormed := by
    intro p pending
    cases pending
  rw [toList_decode] at h
  exact exists_byte_of_mem_charsFrom nothingPending h ascii

theorem newline_not_mem_decode (h : Lines.newline ∉ bs) : '\n' ∉ (decode bs).toList := by
  intro member
  obtain ⟨b, inBytes, same⟩ := exists_byte_of_mem_decode member (by decide)
  obtain rfl : b = Lines.newline := UInt8.toNat_inj.1 same
  exact h inBytes

/-! ## Around a byte of ASCII -/

/-- The next byte of a character in the making is not in ASCII. -/
theorem low_of_step (h : (step o b).2 = some q) : 0x80 ≤ q.low := by
  have startLow (h : (start b).2 = some q) : 0x80 ≤ q.low := by
    simp only [start] at h
    repeat' split at h
    all_goals simp only [reduceCtorEq, Option.some.injEq] at h
    all_goals
      subst h
      dsimp only
      decide
  cases o with
  | none => exact startLow h
  | some p =>
    simp only [step] at h
    split at h
    · split at h
      · simp only [reduceCtorEq] at h
      · obtain rfl := Option.some.inj h
        exact UInt8.le_refl _
    · exact startLow h

theorem charsFrom_append_ascii (ascii : b < 0x80) (beyond : ∀ q ∈ o, 0x80 ≤ q.low)
    (xs ys : List UInt8) :
    charsFrom o (xs ++ b :: ys) = charsFrom o xs ++ Char.ofNat b.toNat :: charsFrom none ys := by
  induction xs generalizing o with
  | nil =>
    rw [List.nil_append, charsFrom, charsFrom, step_ascii ascii o beyond, List.append_assoc,
      List.singleton_append]
  | cons x xs ih =>
    rw [List.cons_append, charsFrom, charsFrom, ih (fun q pending => low_of_step pending),
      List.append_assoc]

/-- What stands before a byte of ASCII and what stands after it are decoded each on its own. -/
theorem toList_decode_append_ascii (ascii : b < 0x80) (xs ys : List UInt8) :
    (decode (xs ++ b :: ys)).toList =
      (decode xs).toList ++ Char.ofNat b.toNat :: (decode ys).toList := by
  have nothingPending : ∀ q ∈ (none : Option Pending), 0x80 ≤ q.low := by
    intro q pending
    cases pending
  rw [toList_decode, toList_decode, toList_decode, charsFrom_append_ascii ascii nothingPending]

/-- Every byte makes a character, at the latest when the bytes end. -/
theorem step_append_finish_ne_nil (o : Option Pending) (b : UInt8) :
    (step o b).1 ++ finish (step o b).2 ≠ [] := by
  have startNe : (start b).1 ++ finish (start b).2 ≠ [] := by
    obtain ⟨-, did⟩ | ⟨p, -, did⟩ | did := cases_of_start b
    all_goals
      rw [did]
      exact List.cons_ne_nil _ _
  cases o with
  | none => exact startNe
  | some p =>
    dsimp only [step]
    split
    · split
      all_goals exact List.cons_ne_nil _ _
    · exact List.cons_ne_nil _ _

theorem charsFrom_ne_nil (h : bs ≠ []) : charsFrom o bs ≠ [] := by
  induction bs generalizing o with
  | nil => exact absurd rfl h
  | cons b bs ih =>
    rw [charsFrom]
    by_cases last : bs = []
    · rw [last, charsFrom]
      exact step_append_finish_ne_nil o b
    · exact List.append_ne_nil_of_right_ne_nil _ (ih last)

theorem toList_decode_eq_nil_iff : (decode bs).toList = [] ↔ bs = [] := by
  rw [toList_decode]
  constructor
  · intro h
    by_contra nonempty
    exact charsFrom_ne_nil nonempty h
  · rintro rfl
    rfl

theorem getLast?_of_getLast?_charsFrom (before : ∀ p ∈ o, p.WellFormed) (nonempty : bs ≠ [])
    (h : (charsFrom o bs).getLast? = some c) (ascii : c.toNat < 0x80) :
    ∃ b, bs.getLast? = some b ∧ b.toNat = c.toNat := by
  induction bs generalizing o with
  | nil => exact absurd rfl nonempty
  | cons b bs ih =>
    rw [charsFrom] at h
    by_cases last : bs = []
    · subst last
      rw [charsFrom] at h
      refine ⟨b, rfl, ?_⟩
      rcases List.mem_append.1 (List.mem_of_getLast? h) with now | atEnd
      · exact (eq_of_mem_step before now ascii).symm
      · cases pending : (step o b).2 with
        | none =>
          rw [pending] at atEnd
          cases atEnd
        | some q =>
          rw [pending, finish, List.mem_singleton] at atEnd
          rw [atEnd, toNat_replacement] at ascii
          omega
    · rw [List.getLast?_append_of_ne_nil _ (charsFrom_ne_nil last)] at h
      obtain ⟨b', ends, same⟩ := ih (fun q pending => wellFormed_of_step before pending) last h
      exact ⟨b', by rw [List.getLast?_cons_of_ne_nil last, ends], same⟩

/-- A text ends in a character of ASCII where its bytes end in that byte. -/
theorem getLast?_decode_iff (ascii : b < 0x80) :
    (decode bs).toList.getLast? = some (Char.ofNat b.toNat) ↔ bs.getLast? = some b := by
  constructor
  · intro h
    have small : b.toNat < 0x80 := ascii
    have value : (Char.ofNat b.toNat).toNat = b.toNat := by
      rw [Char.toNat_ofNat, if_pos (.inl (Nat.lt_trans small (by decide)))]
    have nothingPending : ∀ p ∈ (none : Option Pending), p.WellFormed := by
      intro p pending
      cases pending
    have nonempty : bs ≠ [] := by
      intro empty
      rw [toList_decode_eq_nil_iff.2 empty] at h
      cases h
    rw [toList_decode] at h
    obtain ⟨b', ends, same⟩ :=
      getLast?_of_getLast?_charsFrom nothingPending nonempty h (by rw [value]; exact small)
    rw [value] at same
    rw [ends, UInt8.toNat_inj.1 same]
  · intro h
    obtain ⟨xs, rfl⟩ := List.getLast?_eq_some_iff.1 h
    rw [toList_decode_append_ascii ascii, toList_decode_eq_nil_iff.2 rfl, List.getLast?_concat]

end Utf8

namespace Lines

theorem newline_not_mem_of_mem_splitOn {bytes piece : List UInt8}
    (h : piece ∈ bytes.splitOn newline) : newline ∉ piece := by
  rw [List.splitOn_eq_splitOnP] at h
  intro member
  have other := (of_mem_splitOnP h newline member).2
  rw [beq_self_eq_true] at other
  cases other

theorem dropReturn_subset (line : List UInt8) : dropReturn line ⊆ line := by
  rw [dropReturn]
  split
  · exact List.dropLast_subset line
  · exact List.Subset.refl line

/-- No line holds a newline. -/
theorem newline_not_mem_ofBytes {bytes : List UInt8} {line : String} (h : line ∈ ofBytes bytes) :
    '\n' ∉ line.toList := by
  rw [ofBytes, List.mem_append] at h
  rcases h with h | h
  · obtain ⟨piece, member, rfl⟩ := List.mem_map.1 h
    have whole := newline_not_mem_of_mem_splitOn (List.mem_of_mem_dropLast member)
    exact Utf8.newline_not_mem_decode fun kept => whole (dropReturn_subset piece kept)
  · have ends : (bytes.splitOn newline).getLast?.getD [] ∈ bytes.splitOn newline := by
      rw [List.getLast?_eq_some_getLast (List.splitOn_ne_nil newline bytes)]
      exact List.getLast_mem _
    rw [unended] at h
    split at h
    · cases h
    · rw [List.mem_singleton.1 h]
      exact Utf8.newline_not_mem_decode (newline_not_mem_of_mem_splitOn ends)

end Lines

end Forth.Text
