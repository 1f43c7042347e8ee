/-!
# Decoding UTF-8

Bytes are decoded one at a time. Between characters nothing is pending; inside one, the
bits read so far are, with the range that the next byte must be in. The first continuation
byte has a narrower range after some leading bytes, which shuts out overlong forms,
surrogates and numbers past the last code point.

A byte that cannot go on ends the sequence: the replacement character stands for what was
read of it, and the byte is looked at anew. So each maximal beginning of a well-formed
sequence that is broken off is replaced by one character, and so is every byte that can
begin nothing.
-/

namespace Forth.Text.Utf8

/-- A character begun: its bits so far, how many continuation bytes it lacks after the next
one, and the range of the next one. -/
structure Pending where
  bits : Nat
  later : Nat
  low : UInt8
  high : UInt8
  deriving DecidableEq

def replacement : Char := '\uFFFD'

/-- What a byte gives when nothing is pending: characters, and what is pending after it. -/
def start (b : UInt8) : List Char × Option Pending :=
  let n := b.toNat
  if n < 0x80 then ([Char.ofNat n], none)
  else if n < 0xC2 then ([replacement], none)
  else if n < 0xE0 then ([], some ⟨n - 0xC0, 0, 0x80, 0xBF⟩)
  else if n = 0xE0 then ([], some ⟨0, 1, 0xA0, 0xBF⟩)
  else if n = 0xED then ([], some ⟨0xD, 1, 0x80, 0x9F⟩)
  else if n < 0xF0 then ([], some ⟨n - 0xE0, 1, 0x80, 0xBF⟩)
  else if n = 0xF0 then ([], some ⟨0, 2, 0x90, 0xBF⟩)
  else if n < 0xF4 then ([], some ⟨n - 0xF0, 2, 0x80, 0xBF⟩)
  else if n = 0xF4 then ([], some ⟨4, 2, 0x80, 0x8F⟩)
  else ([replacement], none)

/-- What a byte gives after what is pending. -/
def step : Option Pending → UInt8 → List Char × Option Pending
  | none, b => start b
  | some p, b =>
    if p.low ≤ b ∧ b ≤ p.high then
      let bits := p.bits * 64 + (b.toNat - 0x80)
      match p.later with
      | 0 => ([Char.ofNat bits], none)
      | later + 1 => ([], some ⟨bits, later, 0x80, 0xBF⟩)
    else
      let (cs, p) := start b
      (replacement :: cs, p)

/-- What the end of the bytes gives. -/
def finish : Option Pending → List Char
  | none => []
  | some _ => [replacement]

/-- The text decoded so far. -/
structure Decoder where
  pending : Option Pending
  text : String

def Decoder.feed (d : Decoder) (b : UInt8) : Decoder :=
  let (cs, p) := step d.pending b
  ⟨p, cs.foldl String.push d.text⟩

/-- Decodes bytes, well formed or not. -/
def decode (bytes : List UInt8) : String :=
  let d := bytes.foldl Decoder.feed ⟨none, ""⟩
  (finish d.pending).foldl String.push d.text

/-- A byte of ASCII is a character of its own, whatever is pending before it. -/
theorem step_ascii {b : UInt8} (hb : b < 0x80) (p : Option Pending)
    (hp : ∀ q ∈ p, 0x80 ≤ q.low) :
    step p b = (finish p ++ [Char.ofNat b.toNat], none) := by
  have hn : b.toNat < 0x80 := hb
  cases p with
  | none => simp [step, start, finish, hn]
  | some q =>
    have hq : ¬ q.low ≤ b := by
      have := hp q rfl
      have h1 : (0x80 : UInt8).toNat ≤ q.low.toNat := this
      simp only [UInt8.le_iff_toNat_le]
      simp at h1
      omega
    simp [step, start, finish, hn, hq]

end Forth.Text.Utf8
