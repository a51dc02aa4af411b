import TxIndex.Decimal.Basic
import TxIndex.Text.Blank
import TxIndex.Time.Instant

/-! # Written times

The date and time format of the internet. Times are written in UTC, with as many groups of three
digits behind the second as are needed, and a sign before years that do not have four digits.
Reading is lenient: the parts may have fewer digits, blanks may stand around them, a letter or a
blank divides date and time, and the offset may be left to the word `UTC`. -/
namespace TxIndex
namespace Instant

/-- The digits of a number, padded with zeros on the left. -/
def padded (width n : Nat) : List Char :=
  let digits := Nat.toDigits 10 n
  List.replicate (width - digits.length) '0' ++ digits

/-- A year: four digits, with a sign if they are not enough or the year lies before year 0. -/
def yearChars (year : Int) : List Char :=
  if 0 ≤ year ∧ year ≤ 9999 then padded 4 year.toNat
  else (if year < 0 then '-' else '+') :: padded 4 year.natAbs

/-- The fraction of a second in the fewest groups of three digits. -/
def fractionChars (nanos : Nat) : List Char :=
  if nanos = 0 then []
  else if nanos % 1000000 = 0 then '.' :: padded 3 (nanos / 1000000)
  else if nanos % 1000 = 0 then '.' :: padded 6 (nanos / 1000)
  else '.' :: padded 9 nanos

/-- The written form of an instant. A leap second is the second 60. -/
def write (t : Instant) : String :=
  let d := t.date
  let s := t.secondOfDay
  let second := s % 60 + t.nanos / nanosPerSecond
  String.ofList <|
    yearChars d.year ++ '-' :: padded 2 d.month ++ '-' :: padded 2 d.day ++
    'T' :: padded 2 (s / 3600) ++ ':' :: padded 2 (s / 60 % 60) ++ ':' :: padded 2 second ++
    fractionChars (t.nanos % nanosPerSecond) ++ ['Z']

/-- A number of at most `width` digits, and what is left. -/
def takeNumber (width : Nat) (cs : List Char) : Option (Nat × List Char) :=
  let digits := (cs.take width).takeWhile Char.isDigit
  if digits = [] then none else some (Decimal.digitsValue digits, cs.drop digits.length)

/-- A number of any length, and what is left. -/
def takeLongNumber (cs : List Char) : Option (Nat × List Char) := takeNumber cs.length cs

/-- A year, behind blanks: any number of digits behind a sign, else at most four. -/
def takeYear (cs : List Char) : Option (Int × List Char) :=
  match Text.skipBlanks cs with
  | '-' :: rest => (takeLongNumber rest).map fun (n, rest) => (-(n : Int), rest)
  | '+' :: rest => (takeLongNumber rest).map fun (n, rest) => ((n : Int), rest)
  | rest => (takeNumber 4 rest).map fun (n, rest) => ((n : Int), rest)

/-- A number of at most two digits, behind blanks. -/
def takePart (cs : List Char) : Option (Nat × List Char) := takeNumber 2 (Text.skipBlanks cs)

/-- A given mark, behind blanks. -/
def takeMark (mark : Char) (cs : List Char) : Option (List Char) :=
  match Text.skipBlanks cs with
  | c :: rest => if c = mark then some rest else none
  | [] => none

/-- The nanoseconds of a fraction, 0 if none leads. Digits behind the ninth are dropped. -/
def takeNanos : List Char → Option (Nat × List Char)
  | '.' :: rest =>
    let digits := (rest.takeWhile Char.isDigit).take 9
    if digits = [] then none
    else
      some (Decimal.digitsValue digits * Nat.pow 10 (9 - digits.length),
        rest.dropWhile Char.isDigit)
  | cs => some (0, cs)

/-- Two digits, the first of them at most `top`, as a number. -/
def twoDigits (top : Char) : List Char → Option (Nat × List Char)
  | a :: b :: rest =>
    if a.isDigit ∧ a ≤ top ∧ b.isDigit then some (Decimal.digitsValue [a, b], rest) else none
  | _ => none

/-- Hours and minutes of an offset, with colons and blanks between them, as seconds. -/
def takeOffsetSize (cs : List Char) : Option (Nat × List Char) := do
  let (hours, rest) ← twoDigits '9' cs
  let (minutes, rest) ← twoDigits '5' (rest.dropWhile fun c => c = ':' || Text.isBlank c)
  return (3600 * hours + 60 * minutes, rest)

/-- The offset from UTC in seconds: a word or letter for none, or a sign and its size. -/
def takeOffset (cs : List Char) : Option (Int × List Char) :=
  if (cs.take 3).map Char.toUpper = ['U', 'T', 'C'] then some (0, cs.drop 3)
  else match cs with
    | 'Z' :: rest => some (0, rest)
    | 'z' :: rest => some (0, rest)
    | '+' :: rest => (takeOffsetSize rest).map fun (n, rest) => ((n : Int), rest)
    | '-' :: rest => (takeOffsetSize rest).map fun (n, rest) => (-(n : Int), rest)
    | '−' :: rest => (takeOffsetSize rest).map fun (n, rest) => (-(n : Int), rest)
    | _ => none

/-- The date that leads, and what is left. -/
def takeDate (cs : List Char) : Option (Date × List Char) := do
  let (year, rest) ← takeYear cs
  let (month, rest) ← takePart (← takeMark '-' rest)
  let (day, rest) ← takePart (← takeMark '-' rest)
  return (⟨year, month, day⟩, rest)

/-- Hour, minute, second and nanosecond that lead, and what is left. -/
def takeTime (cs : List Char) : Option ((Nat × Nat × Nat × Nat) × List Char) := do
  let (hour, rest) ← takePart cs
  let (minute, rest) ← takePart (← takeMark ':' rest)
  let (second, rest) ← takePart (← takeMark ':' rest)
  let (nanos, rest) ← takeNanos rest
  return ((hour, minute, second, nanos), rest)

/-- The instant of a date and time at an offset. The second 60 is a leap second. -/
def ofParts? (d : Date) (hour minute second nanos : Nat) (offset : Int) : Option Instant :=
  if d.isValid ∧ firstYear ≤ d.year ∧ d.year ≤ lastYear ∧ hour < 24 ∧ minute < 60 ∧ second ≤ 60 ∧
      offset.natAbs < 86400 then
    let leap := second = 60
    let inDay : Int := 3600 * hour + 60 * minute + (if leap then 59 else second)
    let t : Instant :=
      ⟨d.toDayNumber * secondsPerDay + inDay - offset,
        if leap then nanos + nanosPerSecond else nanos⟩
    if t.isInRange then some t else none
  else none

/-- The instant that a text writes. -/
def read? (s : String) : Option Instant := do
  let (date, rest) ← takeDate s.toList
  let rest ← match rest with
    | c :: rest => if c = 'T' ∨ c = 't' ∨ c = ' ' then some rest else none
    | [] => none
  let ((hour, minute, second, nanos), rest) ← takeTime rest
  let (offset, rest) ← takeOffset (Text.skipBlanks rest)
  if Text.skipBlanks rest = [] then ofParts? date hour minute second nanos offset else none

end Instant
end TxIndex
