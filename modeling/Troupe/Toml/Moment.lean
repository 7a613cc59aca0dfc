import Troupe.Decimal.Numeral

/-!
# Dates and times

Dates, times of day and offsets from universal time, alone or combined, and their one canonical text.
Fractions of a second are kept to nine places.
-/

namespace Troupe.Toml

structure Date where
  year : Nat
  /-- the month, from one -/
  month : Nat
  /-- the day of the month, from one -/
  day : Nat
deriving DecidableEq, Repr

structure Time where
  hour : Nat
  minute : Nat
  /-- the second; leap seconds are the sixtieth -/
  second : Nat
  /-- the billionths of a second -/
  nanosecond : Nat
deriving DecidableEq, Repr

inductive Offset where
  | universal
  /-- some minutes ahead of it or behind it -/
  | minutes (m : Int)
deriving DecidableEq, Repr

/-- A date, a time of day, or both. -/
inductive Moment where
  | date (d : Date)
  | time (t : Time)
  /-- a time on a date, perhaps with an offset -/
  | instant (d : Date) (t : Time) (offset : Option Offset)
deriving DecidableEq, Repr

/-! ## The canonical text -/

/-- A number with at least as many digits as `width`. -/
def padded (width n : Nat) : String :=
  let digits := toString n
  String.ofList (List.replicate (width - digits.length) '0') ++ digits

def Date.text (d : Date) : String :=
  padded 4 d.year ++ "-" ++ padded 2 d.month ++ "-" ++ padded 2 d.day

/-- The digits of a fraction of a second, without zeros at their end. -/
def fractionText (nanosecond : Nat) : String :=
  String.ofList ((padded 9 nanosecond).toList.reverse.dropWhile (· == '0')).reverse

def Time.text (t : Time) : String :=
  padded 2 t.hour ++ ":" ++ padded 2 t.minute ++ ":" ++ padded 2 t.second
    ++ if t.nanosecond = 0 then "" else "." ++ fractionText t.nanosecond

def Offset.text : Offset → String
  | .universal => "Z"
  | .minutes m =>
    (if m < 0 then "-" else "+") ++ padded 2 (m.natAbs / 60) ++ ":" ++ padded 2 (m.natAbs % 60)

def Moment.text : Moment → String
  | .date d => d.text
  | .time t => t.text
  | .instant d t offset => d.text ++ "T" ++ t.text ++ (offset.map Offset.text).getD ""

/-! ## Reading -/

/-- Reads a number of exactly `width` digits between two bounds. -/
def digits? (width low high : Nat) (cs : List Char) : Option (Nat × List Char) := do
  let ds := cs.take width
  if ds.length = width ∧ ds.all Numeral.isDigit then
    let n ← Numeral.natural? 10 ds
    if low ≤ n ∧ n ≤ high then some (n, cs.drop width) else none
  else none

def char? (c : Char) : List Char → Option (List Char)
  | d :: rest => if d = c then some rest else none
  | [] => none

def isLeapYear (year : Nat) : Bool := year % 4 = 0 && (year % 100 ≠ 0 || year % 400 = 0)

def daysIn (year month : Nat) : Nat :=
  if month = 2 then if isLeapYear year then 29 else 28
  else if month = 4 ∨ month = 6 ∨ month = 9 ∨ month = 11 then 30
  else 31

def date? (cs : List Char) : Option (Date × List Char) := do
  let (year, cs) ← digits? 4 0 9999 cs
  let (month, cs) ← digits? 2 1 12 (← char? '-' cs)
  let (day, cs) ← digits? 2 1 (daysIn year month) (← char? '-' cs)
  some (⟨year, month, day⟩, cs)

/-- Reads a fraction of a second, if there is one.  Places beyond the ninth are dropped. -/
def fraction (cs : List Char) : Nat × List Char :=
  match cs with
  | '.' :: rest =>
    let (ds, rest) := Numeral.spanDigits rest
    let kept := ds.take 9
    match Numeral.natural? 10 kept with
    | some n => (n * Nat.pow 10 (9 - kept.length), rest)
    | none => (0, cs)
  | _ => (0, cs)

def time? (cs : List Char) : Option (Time × List Char) := do
  let (hour, cs) ← digits? 2 0 23 cs
  let (minute, cs) ← digits? 2 0 59 (← char? ':' cs)
  let (second, cs) ← digits? 2 0 60 (← char? ':' cs)
  let (nanosecond, cs) := fraction cs
  some (⟨hour, minute, second, nanosecond⟩, cs)

def offsetMinutes? (cs : List Char) : Option (Nat × List Char) := do
  let (hour, cs) ← digits? 2 0 23 cs
  let (minute, cs) ← digits? 2 0 59 (← char? ':' cs)
  some (hour * 60 + minute, cs)

def offset (cs : List Char) : Option Offset × List Char :=
  match cs with
  | 'Z' :: rest | 'z' :: rest => (some .universal, rest)
  | '+' :: rest =>
    match offsetMinutes? rest with
    | some (m, rest) => (some (.minutes m), rest)
    | none => (none, cs)
  | '-' :: rest =>
    match offsetMinutes? rest with
    | some (m, rest) => (some (.minutes (-(m : Int))), rest)
    | none => (none, cs)
  | _ => (none, cs)

def isBetween (c : Char) : Bool := c == 'T' || c == 't' || c == ' '

def moment? (cs : List Char) : Option (Moment × List Char) :=
  match date? cs with
  | none => (time? cs).map fun (t, rest) ↦ (.time t, rest)
  | some (d, c :: rest) =>
    match if isBetween c then time? rest else none with
    | some (t, rest) =>
      let (o, rest) := offset rest
      some (.instant d t o, rest)
    | none => some (.date d, c :: rest)
  | some (d, []) => some (.date d, [])

end Troupe.Toml
