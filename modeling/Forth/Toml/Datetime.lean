/-!
# Dates and times of TOML

A date of the Gregorian calendar, a time of day, or both, in which case the distance from
universal time may be given. `Datetime.text` is the one way in which each is written out:
fields of fixed width, a fraction of a second without trailing zeros, and `Z` or a signed
distance. Reading admits letters of either case, and a space between a date and a time.
-/

namespace Forth.Toml

structure Date where
  year : Nat
  month : Nat
  day : Nat
  deriving DecidableEq

structure Time where
  hour : Nat
  minute : Nat
  second : Nat
  nanosecond : Nat
  deriving DecidableEq

inductive Offset where
  | universal
  /-- So many minutes ahead of universal time, or behind it. -/
  | distance (minutes : Int)
  deriving DecidableEq

inductive Datetime where
  | date (d : Date)
  | time (t : Time)
  | both (d : Date) (t : Time) (offset : Option Offset)
  deriving DecidableEq

namespace Date

def isLeapYear (year : Nat) : Bool :=
  year % 4 == 0 && (year % 100 != 0 || year % 400 == 0)

def daysInMonth (year month : Nat) : Nat :=
  if month = 2 then if isLeapYear year then 29 else 28
  else if month = 4 ∨ month = 6 ∨ month = 9 ∨ month = 11 then 30
  else 31

def isValid (d : Date) : Bool :=
  1 ≤ d.month && d.month ≤ 12 && 1 ≤ d.day && d.day ≤ daysInMonth d.year d.month

end Date

/-- A minute may have a leap second. -/
def Time.isValid (t : Time) : Bool :=
  t.hour ≤ 23 && t.minute ≤ 59 && t.second ≤ 60

/-- A number with zeros in front up to the given width. -/
def zeroPadded (width n : Nat) : String :=
  let digits := (toString n).toList
  String.ofList (List.replicate (width - digits.length) '0' ++ digits)

def Date.text (d : Date) : String :=
  zeroPadded 4 d.year ++ "-" ++ zeroPadded 2 d.month ++ "-" ++ zeroPadded 2 d.day

def Time.text (t : Time) : String :=
  let fraction := (zeroPadded 9 t.nanosecond).toList.reverse.dropWhile (· == '0')
  zeroPadded 2 t.hour ++ ":" ++ zeroPadded 2 t.minute ++ ":" ++ zeroPadded 2 t.second ++
    if fraction.isEmpty then "" else "." ++ String.ofList fraction.reverse

def Offset.text : Offset → String
  | universal => "Z"
  | distance minutes =>
    (if minutes < 0 then "-" else "+") ++ zeroPadded 2 (minutes.natAbs / 60) ++ ":" ++
      zeroPadded 2 (minutes.natAbs % 60)

def Datetime.text : Datetime → String
  | date d => d.text
  | time t => t.text
  | both d t offset => d.text ++ "T" ++ t.text ++ ((offset.map Offset.text).getD "")

/-! ## Reading -/

def digits₂? (a b : Char) : Option Nat :=
  if a.isDigit && b.isDigit then some (Nat.ofDigitChars 10 [a, b] 0) else none

/-- Reads a date off the front. -/
def date? : List Char → Option (Date × List Char)
  | y₁ :: y₂ :: y₃ :: y₄ :: '-' :: m₁ :: m₂ :: '-' :: d₁ :: d₂ :: rest => do
    let century ← digits₂? y₁ y₂
    let year ← digits₂? y₃ y₄
    let date : Date := ⟨century * 100 + year, ← digits₂? m₁ m₂, ← digits₂? d₁ d₂⟩
    if date.isValid then some (date, rest) else none
  | _ => none

/-- Reads a fraction of a second off the front, in nanoseconds. Further digits are dropped. -/
def fraction? : List Char → Option (Nat × List Char)
  | '.' :: s =>
    let digits := s.takeWhile Char.isDigit
    if digits.isEmpty then none
    else
      some (Nat.ofDigitChars 10 ((digits ++ List.replicate 9 '0').take 9) 0,
        s.dropWhile Char.isDigit)
  | s => some (0, s)

/-- Reads a time of day off the front. -/
def time? : List Char → Option (Time × List Char)
  | h₁ :: h₂ :: ':' :: m₁ :: m₂ :: ':' :: s₁ :: s₂ :: rest => do
    let (nanosecond, rest) ← fraction? rest
    let time : Time := ⟨← digits₂? h₁ h₂, ← digits₂? m₁ m₂, ← digits₂? s₁ s₂, nanosecond⟩
    if time.isValid then some (time, rest) else none
  | _ => none

/-- Reads a text as the distance from universal time, if there is one. -/
def offset? : List Char → Option (Option Offset)
  | [] => some none
  | ['Z'] => some (some .universal)
  | ['z'] => some (some .universal)
  | [sign, h₁, h₂, ':', m₁, m₂] => do
    let hours ← digits₂? h₁ h₂
    let minutes ← digits₂? m₁ m₂
    let distance : Int := (hours * 60 + minutes : Nat)
    if 23 < hours || 59 < minutes then none
    else if sign = '+' then some (some (.distance distance))
    else if sign = '-' then some (some (.distance (-distance)))
    else none
  | _ => none

/-- Reads a whole text as a date, a time, or both with a `T` or a space between them. -/
def datetime? (s : List Char) : Option Datetime :=
  match date? s with
  | some (d, []) => some (.date d)
  | some (d, c :: rest) =>
    if c == 'T' || c == 't' || c == ' ' then
      match time? rest with
      | some (t, rest) => (offset? rest).map (.both d t)
      | none => none
    else none
  | none =>
    match time? s with
    | some (t, []) => some (.time t)
    | _ => none

end Forth.Toml
