import Mathlib
import Forth.Proofs.Decoding

/-!
# Encoding in UTF-8

The bytes of a text are those of its characters, one after the other. They are in the order of the
characters: where two characters differ, the first byte in which they differ tells which is greater
(`utf8EncodeChar_append_lt`), and so it is with texts (`bytes_lt_bytes_iff`).

Decoding gives a text back from its bytes (`Utf8.decode_bytes`): the leading byte of a character
leaves the range that the byte after it is in, and every continuation byte adds its six bits.

Encoding gives the bytes back from a decoded text, if no replacement stands in it
(`Utf8.bytes_decode`). What is kept while a byte is read after the other is that the bytes read of a
character in the making are the first bytes of every character that can still come of them
(`Utf8.Pending.Begun`). So bytes that are not well formed leave a replacement.
-/

namespace Forth.Text

/-- The bytes of a text. -/
def bytes (s : String) : List UInt8 := s.toUTF8.data.toList

theorem bytes_eq_flatMap (s : String) : bytes s = s.toList.flatMap String.utf8EncodeChar := by
  rw [bytes, String.toUTF8_eq_toByteArray, ← String.utf8Encode_toList, List.utf8Encode,
    List.toList_data_toByteArray]

theorem bytes_append (s t : String) : bytes (s ++ t) = bytes s ++ bytes t := by
  rw [bytes_eq_flatMap, String.toList_append, List.flatMap_append, ← bytes_eq_flatMap,
    ← bytes_eq_flatMap]

theorem isValidUTF8_bytes (s : String) : (bytes s).toByteArray.IsValidUTF8 :=
  ⟨s.toList, by rw [bytes_eq_flatMap, List.utf8Encode]⟩

/-! ## The order of bytes -/

/-- The bytes of a character come before those of a greater one, whatever follows them. -/
theorem utf8EncodeChar_append_lt {c d : Char} (h : c < d) (xs ys : List UInt8) :
    String.utf8EncodeChar c ++ xs < String.utf8EncodeChar d ++ ys := by
  have lt : c.val.toNat < d.val.toNat := h
  have top : d.val.toNat < 0x110000 := by
    obtain below | ⟨-, below⟩ := d.valid
    · exact Nat.lt_trans below (by decide)
    · exact below
  unfold String.utf8EncodeChar
  generalize c.val.toNat = m at lt
  generalize d.val.toNat = n at lt top
  -- Six bits go into each byte but the first.
  have third (k : Nat) : k / 4096 = k / 64 / 64 := by omega
  have fourth (k : Nat) : k / 262144 = k / 64 / 64 / 64 := by omega
  simp only [third, fourth]
  repeat' split
  all_goals
    simp only [List.cons_append, List.nil_append, List.cons_lt_cons_iff, UInt8.lt_iff_toNat_lt,
      ← UInt8.toNat_inj, UInt8.toNat_ofNat']
    omega

theorem flatMap_utf8EncodeChar_lt {cs ds : List Char} (h : cs < ds) :
    cs.flatMap String.utf8EncodeChar < ds.flatMap String.utf8EncodeChar := by
  induction h with
  | @nil d ds =>
    obtain ⟨b, bs, first⟩ := List.exists_cons_of_ne_nil (String.utf8EncodeChar_ne_nil (c := d))
    rw [List.flatMap_cons, first]
    exact List.nil_lt_cons b _
  | rel less =>
    rw [List.flatMap_cons, List.flatMap_cons]
    exact utf8EncodeChar_append_lt less _ _
  | cons _ ih =>
    rw [List.flatMap_cons, List.flatMap_cons]
    exact List.append_left_lt ih

/-- Texts are in the order of their bytes. -/
theorem bytes_lt_bytes_iff {s t : String} : bytes s < bytes t ↔ s < t := by
  have mono {s t : String} (h : s < t) : bytes s < bytes t := by
    rw [bytes_eq_flatMap, bytes_eq_flatMap]
    exact flatMap_utf8EncodeChar_lt (String.lt_iff_toList_lt.1 h)
  refine ⟨?_, mono⟩
  intro less
  rcases lt_trichotomy s t with h | rfl | h
  · exact h
  · exact absurd less (List.lt_irrefl _)
  · exact absurd less (List.lt_asymm (mono h))

/-! ## Decoding what was encoded -/

namespace Utf8

variable {n d bits later : Nat} {low high b : UInt8} {p : Pending} {bs : List UInt8}

/-- A continuation byte with these six bits can stand where the next byte has to be in the range. -/
def Fits (low high : UInt8) (d : Nat) : Prop :=
  low.toNat ≤ d + 128 ∧ d + 128 ≤ high.toNat

theorem fits_any (small : d < 64) : Fits 0x80 0xBF d := by
  simp only [Fits, UInt8.reduceToNat]
  omega

theorem toNat_continuation (small : d < 64) : (UInt8.ofNat (d + 128)).toNat = d + 128 := by
  rw [UInt8.toNat_ofNat']
  omega

theorem inRange_of_fits (small : d < 64) (fits : Fits low high d) :
    low ≤ UInt8.ofNat (d + 128) ∧ UInt8.ofNat (d + 128) ≤ high := by
  rw [UInt8.le_iff_toNat_le, UInt8.le_iff_toNat_le, toNat_continuation small]
  exact fits

theorem charsFrom_of_lead (h : start b = ([], some p)) :
    charsFrom none (b :: bs) = charsFrom (some p) bs := by
  rw [charsFrom, step, h, List.nil_append]

theorem charsFrom_of_more (small : d < 64) (fits : Fits low high d) :
    charsFrom (some ⟨bits, later + 1, low, high⟩) (UInt8.ofNat (d + 128) :: bs) =
      charsFrom (some ⟨bits * 64 + d, later, 0x80, 0xBF⟩) bs := by
  simp only [charsFrom, step, if_pos (inRange_of_fits small fits), toNat_continuation small,
    Nat.add_sub_cancel, List.nil_append]

theorem charsFrom_of_last (small : d < 64) :
    charsFrom (some ⟨bits, 0, 0x80, 0xBF⟩) (UInt8.ofNat (d + 128) :: bs) =
      Char.ofNat (bits * 64 + d) :: charsFrom none bs := by
  simp only [charsFrom, step, if_pos (inRange_of_fits small (fits_any small)),
    toNat_continuation small, Nat.add_sub_cancel, List.singleton_append]

/-! The leading bytes of two, three and four -/

theorem start_two (least : 0x80 ≤ n) (most : n ≤ 0x7FF) :
    start (UInt8.ofNat (n / 64 % 32 + 192)) = ([], some ⟨n / 64, 0, 0x80, 0xBF⟩) := by
  have value : (UInt8.ofNat (n / 64 % 32 + 192)).toNat = n / 64 + 0xC0 := by
    rw [UInt8.toNat_ofNat']
    omega
  have notAscii : ¬ n / 64 + 0xC0 < 0x80 := by omega
  have notOverlong : ¬ n / 64 + 0xC0 < 0xC2 := by omega
  have ofTwo : n / 64 + 0xC0 < 0xE0 := by omega
  simp only [start, value, if_neg notAscii, if_neg notOverlong, if_pos ofTwo, Nat.add_sub_cancel]

theorem start_three (least : 0x800 ≤ n) (most : n ≤ 0xFFFF) (valid : n.isValidChar) :
    ∃ low high : UInt8, start (UInt8.ofNat (n / 4096 % 16 + 224)) =
      ([], some ⟨n / 4096, 1, low, high⟩) ∧ Fits low high (n / 64 % 64) := by
  have value : (UInt8.ofNat (n / 4096 % 16 + 224)).toNat = n / 4096 + 0xE0 := by
    rw [UInt8.toNat_ofNat']
    omega
  simp only [Nat.isValidChar] at valid
  simp only [start, value]
  repeat' split
  all_goals try omega
  -- What is left are the three ranges that the second byte can have to be in.
  all_goals
    simp only [Prod.mk.injEq, true_and, Option.some.injEq, Pending.mk.injEq]
    refine ⟨_, _, ⟨?_, rfl, rfl⟩, ?_⟩
    · omega
    · simp only [Fits, UInt8.reduceToNat]
      omega

theorem start_four (least : 0x10000 ≤ n) (valid : n.isValidChar) :
    ∃ low high : UInt8, start (UInt8.ofNat (n / 262144 % 8 + 240)) =
      ([], some ⟨n / 262144, 2, low, high⟩) ∧ Fits low high (n / 4096 % 64) := by
  simp only [Nat.isValidChar] at valid
  have value : (UInt8.ofNat (n / 262144 % 8 + 240)).toNat = n / 262144 + 0xF0 := by
    rw [UInt8.toNat_ofNat']
    omega
  simp only [start, value]
  repeat' split
  all_goals try omega
  all_goals
    simp only [Prod.mk.injEq, true_and, Option.some.injEq, Pending.mk.injEq]
    refine ⟨_, _, ⟨?_, rfl, rfl⟩, ?_⟩
    · omega
    · simp only [Fits, UInt8.reduceToNat]
      omega

theorem charsFrom_utf8EncodeChar (c : Char) (bs : List UInt8) :
    charsFrom none (String.utf8EncodeChar c ++ bs) = c :: charsFrom none bs := by
  have valid : c.val.toNat.isValidChar := c.valid
  have same : Char.ofNat c.val.toNat = c := Char.ofNat_toNat c
  unfold String.utf8EncodeChar
  generalize c.val.toNat = n at same valid
  have bits (m : Nat) : m % 64 < 64 := Nat.mod_lt m (by decide)
  have whole (m : Nat) : m / 64 * 64 + m % 64 = m := Nat.div_add_mod' m 64
  have third : n / 4096 = n / 64 / 64 := by omega
  have fourth : n / 262144 = n / 64 / 64 / 64 := by omega
  dsimp only
  split
  next one =>
    have value : (UInt8.ofNat n).toNat = n := by
      rw [UInt8.toNat_ofNat']
      omega
    have ascii : UInt8.ofNat n < 0x80 := by
      rw [UInt8.lt_iff_toNat_lt, value]
      exact Nat.lt_succ_of_le one
    rw [List.singleton_append, charsFrom, step_ascii ascii none (by simp), value, same]
    rfl
  next beyondOne =>
    split
    next two =>
      rw [List.cons_append, List.singleton_append, charsFrom_of_lead (start_two (by omega) two),
        charsFrom_of_last (bits n), whole, same]
    next beyondTwo =>
      split
      next three =>
        obtain ⟨low, high, lead, fits⟩ := start_three (by omega) three valid
        rw [List.cons_append, List.cons_append, List.singleton_append, charsFrom_of_lead lead,
          charsFrom_of_more (bits _) fits, charsFrom_of_last (bits n), third, whole, whole, same]
      next beyondThree =>
        obtain ⟨low, high, lead, fits⟩ := start_four (by omega) valid
        rw [List.cons_append, List.cons_append, List.cons_append, List.singleton_append,
          charsFrom_of_lead lead, charsFrom_of_more (bits _) fits,
          charsFrom_of_more (bits _) (fits_any (bits _)), charsFrom_of_last (bits n), fourth, third,
          whole, whole, whole, same]

theorem charsFrom_flatMap_utf8EncodeChar (cs : List Char) :
    charsFrom none (cs.flatMap String.utf8EncodeChar) = cs := by
  induction cs with
  | nil => rfl
  | cons c cs ih => rw [List.flatMap_cons, charsFrom_utf8EncodeChar, ih]

/-- Decoding gives a text back from its bytes. -/
theorem decode_bytes (s : String) : decode (bytes s) = s := by
  rw [← String.toList_inj, toList_decode, bytes_eq_flatMap, charsFrom_flatMap_utf8EncodeChar]

/-! ## Encoding what was decoded -/

section

variable {read : List UInt8} {o : Option Pending}

/-- The bytes of the low bits of a number, six bits in each. -/
def continuation (n : Nat) : Nat → List UInt8
  | 0 => [UInt8.ofNat (n % 64 + 128)]
  | later + 1 => UInt8.ofNat (n / 64 ^ (later + 1) % 64 + 128) :: continuation n later

/-- Every character that can come of what is pending begins with these bytes. -/
structure Pending.Begun (p : Pending) (read : List UInt8) : Prop where
  formed : p.WellFormed
  low : 0x80 ≤ p.low
  high : p.high ≤ 0xBF
  encodes : ∀ n, p.least ≤ n → n < p.bound →
    String.utf8EncodeChar (Char.ofNat n) = read ++ continuation n p.later

/-- What has been read of the character in the making, if one is. -/
def Owed (read : List UInt8) : Option Pending → Prop
  | none => read = []
  | some p => p.Begun read

theorem Pending.WellFormed.isValidChar (formed : p.WellFormed) (least : p.least ≤ n)
    (bound : n < p.bound) : n.isValidChar := by
  rcases formed.scalar with below | ⟨above, within⟩
  · exact .inl (by omega)
  · exact .inr ⟨by omega, by omega⟩

theorem val_ofNat (valid : n.isValidChar) : (Char.ofNat n).val.toNat = n :=
  (Char.toNat_ofNat n).trans (if_pos valid)

theorem utf8EncodeChar_two (least : 0x80 ≤ n) (most : n ≤ 0x7FF) :
    String.utf8EncodeChar (Char.ofNat n) = UInt8.ofNat (n / 64 + 0xC0) :: continuation n 0 := by
  have small : n / 64 % 32 + 192 = n / 64 + 0xC0 := by omega
  simp only [String.utf8EncodeChar, val_ofNat (n := n) (.inl (by omega)), continuation, small]
  rw [if_neg (by omega), if_pos most]

theorem utf8EncodeChar_three (least : 0x800 ≤ n) (most : n ≤ 0xFFFF) (valid : n.isValidChar) :
    String.utf8EncodeChar (Char.ofNat n) = UInt8.ofNat (n / 4096 + 0xE0) :: continuation n 1 := by
  have small : n / 4096 % 16 + 224 = n / 4096 + 0xE0 := by omega
  simp only [String.utf8EncodeChar, val_ofNat valid, continuation, small]
  rw [if_neg (by omega), if_neg (by omega), if_pos most]
  rfl

theorem utf8EncodeChar_four (least : 0x10000 ≤ n) (valid : n.isValidChar) :
    String.utf8EncodeChar (Char.ofNat n) =
      UInt8.ofNat (n / 262144 + 0xF0) :: continuation n 2 := by
  have small : n / 262144 % 8 + 240 = n / 262144 + 0xF0 := by
    simp only [Nat.isValidChar] at valid
    omega
  simp only [String.utf8EncodeChar, val_ofNat valid, continuation, small]
  rw [if_neg (by omega), if_neg (by omega), if_neg (by omega)]
  rfl

/-- A leading byte begins the characters that can come of it. -/
theorem begun_of_start (h : start b = ([], some p)) : p.Begun [b] := by
  have formed : p.WellFormed := by
    obtain ⟨-, did⟩ | ⟨q, formed, did⟩ | did := cases_of_start b
    · cases did.symm.trans h
    · cases did.symm.trans h
      exact formed
    · cases did.symm.trans h
  have lead {m : Nat} (same : m = b.toNat) : UInt8.ofNat m = b := by
    rw [same, UInt8.ofNat_toNat]
  dsimp only [start] at h
  repeat' split at h
  all_goals simp only [Prod.mk.injEq, reduceCtorEq, and_false, true_and, Option.some.injEq] at h
  all_goals
    subst h
    refine ⟨formed, ?low, ?high, fun n least bound => ?_⟩
    case low => dsimp only; decide
    case high => dsimp only; decide
    have valid := formed.isValidChar least bound
    simp only [Pending.least, Pending.bound, UInt8.reduceToNat, Nat.reducePow, Nat.reduceSub]
      at least bound
  -- What is left is one range after the leading bytes of two, and three each after those of three
  -- and of four.
  · rw [utf8EncodeChar_two (by omega) (by omega), lead (by omega), List.singleton_append]
  iterate 3
    rw [utf8EncodeChar_three (by omega) (by omega) valid, lead (by omega), List.singleton_append]
  iterate 3
    rw [utf8EncodeChar_four (by omega) valid, lead (by omega), List.singleton_append]

/-- The last byte completes the character. -/
theorem Pending.Begun.last (begun : p.Begun read) (inRange : p.low ≤ b ∧ b ≤ p.high)
    (last : p.later = 0) :
    String.utf8EncodeChar (Char.ofNat (p.bits * 64 + (b.toNat - 0x80))) = read ++ [b] := by
  obtain ⟨least, bound⟩ := Pending.narrow inRange.1 inRange.2
  have low : 0x80 ≤ b.toNat := UInt8.le_trans begun.low inRange.1
  have high : b.toNat ≤ 0xBF := UInt8.le_trans inRange.2 begun.high
  simp only [last, pow_zero, mul_one] at least bound
  have bits : (p.bits * 64 + (b.toNat - 0x80)) % 64 + 128 = b.toNat := by omega
  rw [begun.encodes _ least bound, last, continuation, bits, UInt8.ofNat_toNat]

/-- Any other byte is one more byte of the characters that can still come. -/
theorem Pending.Begun.more {more : Nat} (begun : p.Begun read)
    (inRange : p.low ≤ b ∧ b ≤ p.high) (later : p.later = more + 1) :
    Pending.Begun ⟨p.bits * 64 + (b.toNat - 0x80), more, 0x80, 0xBF⟩ (read ++ [b]) := by
  obtain ⟨least, bound⟩ := Pending.narrow inRange.1 inRange.2
  have low : 0x80 ≤ b.toNat := UInt8.le_trans begun.low inRange.1
  have high : b.toNat ≤ 0xBF := UInt8.le_trans inRange.2 begun.high
  rw [later, ← least_of_any] at least
  rw [later, ← bound_of_any] at bound
  refine ⟨begun.formed.mono least bound, UInt8.le_refl _, UInt8.le_refl _, fun n above below => ?_⟩
  have whole := begun.encodes n (Nat.le_trans least above) (Nat.lt_of_lt_of_le below bound)
  rw [least_of_any] at above
  rw [bound_of_any] at below
  have bits : n / 64 ^ (more + 1) % 64 + 128 = b.toNat := by
    rw [Nat.div_eq_of_lt_le above below]
    omega
  rw [whole, later, continuation, bits, UInt8.ofNat_toNat, List.append_assoc,
    List.singleton_append]

/-- A byte that breaks nothing off gives the bytes of characters, and what is owed after it. -/
theorem owed_of_step (owed : Owed read o) (clean : replacement ∉ (step o b).1) :
    ∃ read', Owed read' (step o b).2 ∧
      (step o b).1.flatMap String.utf8EncodeChar ++ read' = read ++ [b] := by
  cases o with
  | none =>
    obtain rfl : read = [] := owed
    rw [step] at clean ⊢
    obtain ⟨small, did⟩ | ⟨p, -, did⟩ | did := cases_of_start b
    · have valid : b.toNat.isValidChar := .inl (by omega)
      have own : String.utf8EncodeChar (Char.ofNat b.toNat) = [b] := by
        simp only [String.utf8EncodeChar, val_ofNat valid]
        rw [if_pos (by omega), UInt8.ofNat_toNat]
      rw [did]
      exact ⟨[], rfl, by simp [own]⟩
    · rw [did]
      exact ⟨[b], begun_of_start did, rfl⟩
    · rw [did] at clean
      exact absurd (List.mem_singleton_self replacement) clean
  | some p =>
    have begun : p.Begun read := owed
    by_cases inRange : p.low ≤ b ∧ b ≤ p.high
    · cases later : p.later with
      | zero =>
        simp only [step, if_pos inRange, later]
        exact ⟨[], rfl, by simp [begun.last inRange later]⟩
      | succ more =>
        simp only [step, if_pos inRange, later]
        exact ⟨read ++ [b], begun.more inRange later, rfl⟩
    · simp only [step, if_neg inRange] at clean
      exact absurd List.mem_cons_self clean

theorem flatMap_charsFrom (owed : Owed read o) (clean : replacement ∉ charsFrom o bs) :
    (charsFrom o bs).flatMap String.utf8EncodeChar = read ++ bs := by
  induction bs generalizing o read with
  | nil =>
    cases o with
    | none =>
      obtain rfl : read = [] := owed
      rfl
    | some p => exact absurd (List.mem_singleton_self replacement) clean
  | cons b bs ih =>
    rw [charsFrom, List.mem_append, not_or] at clean
    obtain ⟨read', owed', did⟩ := owed_of_step owed clean.1
    rw [charsFrom, List.flatMap_append, ih owed' clean.2, ← List.append_assoc, did,
      List.append_assoc, List.singleton_append]

/-- Encoding gives the bytes back, if none of them was replaced. -/
theorem bytes_decode (clean : replacement ∉ (decode bs).toList) : bytes (decode bs) = bs := by
  rw [toList_decode] at clean
  have nothing : Owed [] none := rfl
  rw [bytes_eq_flatMap, toList_decode, flatMap_charsFrom nothing clean, List.nil_append]

/-- Bytes that are not well formed do not go without a replacement. -/
theorem replacement_mem_decode (malformed : ¬ bs.toByteArray.IsValidUTF8) :
    replacement ∈ (decode bs).toList := by
  by_contra clean
  apply malformed
  rw [← bytes_decode clean]
  exact isValidUTF8_bytes _

end

end Utf8

end Forth.Text
