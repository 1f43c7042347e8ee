import Forth.Toml.Reader
import Forth.Toml.Value

/-!
# Numbers, truth values and dates of TOML

All of these are written without quotes, and no character that they are made of may follow
one of them. So the whole run of such characters is taken first and then read as one thing
or another. Only a date goes on after a space, with a time.
-/

namespace Forth.Toml

/-- The digits of a number whose digits may have single underscores between them. -/
def ungroup (isDigit : Char → Bool) : List Char → Option (List Char)
  | [] => none
  | [c] => if isDigit c then some [c] else none
  | c :: '_' :: s => if isDigit c then (ungroup isDigit s).map (c :: ·) else none
  | c :: s => if isDigit c then (ungroup isDigit s).map (c :: ·) else none

/-- Splits a sign off: whether it is a minus, and the rest. -/
def splitSign : List Char → Bool × List Char
  | '-' :: s => (true, s)
  | '+' :: s => (false, s)
  | s => (false, s)

/-- The digits of a decimal integer, which has no zero in front. -/
def decimalDigits? (s : List Char) : Option (List Char) :=
  match ungroup Char.isDigit s with
  | some ['0'] => some ['0']
  | some ('0' :: _) => none
  | digits => digits

/-! ## Integers -/

def digitValue (c : Char) : Nat :=
  if c.isDigit then c.toNat - '0'.toNat else c.toLower.toNat - 'a'.toNat + 10

def isHexDigit (c : Char) : Bool :=
  c.isDigit || ('a' ≤ c && c ≤ 'f') || ('A' ≤ c && c ≤ 'F')

/-- Reads digits of a base other than ten. -/
def based? (base : Nat) (isDigit : Char → Bool) (s : List Char) : Option Int :=
  (ungroup isDigit s).map fun digits =>
    (digits.foldl (fun n c => n * base + digitValue c) 0 : Nat)

def unbounded? : List Char → Option Int
  | '0' :: 'x' :: s => based? 16 isHexDigit s
  | '0' :: 'o' :: s => based? 8 (fun c => '0' ≤ c && c ≤ '7') s
  | '0' :: 'b' :: s => based? 2 (fun c => c == '0' || c == '1') s
  | s =>
    let (negative, s) := splitSign s
    (decimalDigits? s).map fun digits =>
      let n : Int := (Nat.ofDigitChars 10 digits 0 : Nat)
      if negative then -n else n

/-- Reads an integer of 64 bits. -/
def integer? (s : List Char) : Option Int64 :=
  (unbounded? s).bind fun n =>
    if Int64.minValue.toInt ≤ n ∧ n ≤ Int64.maxValue.toInt then some (Int64.ofInt n) else none

/-! ## Floating-point numbers -/

def isGroupedDigit (c : Char) : Bool := c.isDigit || c == '_'

/-- Reads an exponent, if there is one. -/
def exponent? : List Char → Option Int
  | [] => some 0
  | c :: s =>
    if c == 'e' || c == 'E' then
      let (negative, s) := splitSign s
      (ungroup Char.isDigit s).map fun digits =>
        let n : Int := (Nat.ofDigitChars 10 digits 0 : Nat)
        if negative then -n else n
    else none

/-- Reads the magnitude of a decimal fraction: digits with a fraction, an exponent, or both. -/
def decimalFloat? (s : List Char) : Option Binary64 := do
  let whole ← decimalDigits? (s.takeWhile isGroupedDigit)
  match s.dropWhile isGroupedDigit with
  | [] => none
  | '.' :: s =>
    let fraction ← ungroup Char.isDigit (s.takeWhile isGroupedDigit)
    let exponent ← exponent? (s.dropWhile isGroupedDigit)
    some (.ofDecimal (Nat.ofDigitChars 10 (whole ++ fraction) 0) (exponent - fraction.length))
  | s =>
    let exponent ← exponent? s
    some (.ofDecimal (Nat.ofDigitChars 10 whole 0) exponent)

/-- Reads a floating-point number. A number too large to be finite is refused, unless it is
negative. -/
def float? (s : List Char) : Option Binary64 :=
  let (negative, magnitude) := splitSign s
  let signed (x : Binary64) := if negative then x.negate else x
  match magnitude with
  | ['i', 'n', 'f'] => some (signed .infinity)
  | ['n', 'a', 'n'] => some (signed .nan)
  | _ =>
    (decimalFloat? magnitude).bind fun x =>
      if x = .infinity ∧ negative = false then none else some (signed x)

/-! ## All of them -/

def scalar? (s : List Char) : Option Value :=
  match s with
  | ['t', 'r', 'u', 'e'] => some (.boolean true)
  | ['f', 'a', 'l', 's', 'e'] => some (.boolean false)
  | _ =>
    match datetime? s, float? s, integer? s with
    | some d, _, _ => some (.datetime d)
    | none, some x, _ => some (.float x)
    | none, none, some n => some (.integer n)
    | none, none, none => none

def isScalarChar (c : Char) : Bool :=
  c.isAlphanum || c == '+' || c == '-' || c == '.' || c == ':' || c == '_'

/-- Does a time of day follow, after one space? -/
def timeFollows : List Char → Bool
  | ' ' :: c :: _ => c.isDigit
  | _ => false

/-- Reads the characters of a scalar, which may have a space between a date and a time. -/
def scalarText : Reader (List Char) where
  read s :=
    ((Reader.run isScalarChar).read s).map fun (text, rest) =>
      match date? text with
      | some (_, []) =>
        if timeFollows rest then
          (text ++ ' ' :: (rest.drop 1).takeWhile isScalarChar,
            (rest.drop 1).dropWhile isScalarChar)
        else (text, rest)
      | _ => (text, rest)
  shorter {s a rest} h := by
    obtain ⟨⟨text, t⟩, ht, hr⟩ := Option.map_eq_some_iff.1 h
    have short := (Reader.run isScalarChar).shorter ht
    have more := length_dropWhile_le isScalarChar (t.drop 1)
    have drop := List.length_drop (i := 1) (l := t)
    simp only at hr
    split at hr
    next =>
      split at hr
      next =>
        cases hr
        omega
      next =>
        cases hr
        exact short
    next =>
      cases hr
      exact short

def scalar : Reader Value :=
  scalarText.filterMap scalar?

end Forth.Toml
