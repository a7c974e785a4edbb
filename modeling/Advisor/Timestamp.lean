import Advisor.Text.Blank

namespace Advisor

/-- An instant: seconds since the start of 1970 in UTC, and nanoseconds. A leap second is written as its
predecessor with more than a second of nanoseconds. -/
structure Timestamp where
  seconds : Int
  nanos : Nat
  deriving DecidableEq, Repr, Inhabited

namespace Timestamp

instance : LE Timestamp where
  le a b := a.seconds < b.seconds ∨ (a.seconds = b.seconds ∧ a.nanos ≤ b.nanos)

instance (a b : Timestamp) : Decidable (a ≤ b) :=
  inferInstanceAs (Decidable (_ ∨ _))

/-- Going back from inside a leap second leaves it first. -/
def minusSeconds (t : Timestamp) (n : Int) : Timestamp :=
  if t.nanos < 1000000000 then ⟨t.seconds - n, t.nanos⟩
  else ⟨t.seconds + 1 - n, t.nanos - 1000000000⟩

def minusDays (t : Timestamp) (n : Int) : Timestamp :=
  t.minusSeconds (n * 86400)

/-- Days since the start of 1970, in the Gregorian calendar of all years. The year is taken to begin in
March, so that the leap day ends it. -/
def daysOfDate (year month day : Int) : Int :=
  let y := if month ≤ 2 then year - 1 else year
  let era := y.fdiv 400
  let yearOfEra := y - era * 400
  let dayOfYear := (153 * (if 2 < month then month - 3 else month + 9) + 2).fdiv 5 + day - 1
  let dayOfEra := yearOfEra * 365 + yearOfEra.fdiv 4 - yearOfEra.fdiv 100 + dayOfYear
  era * 146097 + dayOfEra - 719468

def dateOfDays (days : Int) : Int × Int × Int :=
  let z := days + 719468
  let era := z.fdiv 146097
  let dayOfEra := z - era * 146097
  let yearOfEra :=
    (dayOfEra - dayOfEra.fdiv 1460 + dayOfEra.fdiv 36524 - dayOfEra.fdiv 146096).fdiv 365
  let dayOfYear := dayOfEra - (365 * yearOfEra + yearOfEra.fdiv 4 - yearOfEra.fdiv 100)
  let m := (5 * dayOfYear + 2).fdiv 153
  let day := dayOfYear - (153 * m + 2).fdiv 5 + 1
  let month := if m < 10 then m + 3 else m - 9
  let year := yearOfEra + era * 400 + (if month ≤ 2 then 1 else 0)
  (year, month, day)

def isLeapYear (year : Int) : Bool :=
  year % 4 == 0 && (year % 100 != 0 || year % 400 == 0)

def daysInMonth (year month : Int) : Int :=
  if month = 2 then if isLeapYear year then 29 else 28
  else if month = 4 ∨ month = 6 ∨ month = 9 ∨ month = 11 then 30
  else 31

def firstYear : Int := -262143

def lastYear : Int := 262142

def firstSecond : Int := daysOfDate firstYear 1 1 * 86400

def endSecond : Int := daysOfDate (lastYear + 1) 1 1 * 86400

section Reading

open Text

def natOf (cs : List Char) : Nat :=
  cs.foldl (fun n c => n * 10 + (c.toNat - 48)) 0

def number? (width : Nat) (cs : List Char) : Option (Nat × List Char) :=
  let ds := (cs.take width).takeWhile Char.isDigit
  if ds.isEmpty then none else some (natOf ds, cs.drop ds.length)

def spaced? (width : Nat) (cs : List Char) : Option (Nat × List Char) :=
  number? width (cs.dropWhile isBlank)

def year? (cs : List Char) : Option (Int × List Char) :=
  match cs.dropWhile isBlank with
  | '-' :: cs => (number? cs.length cs).map fun (n, cs) => (-(n : Int), cs)
  | '+' :: cs => (number? cs.length cs).map fun (n, cs) => ((n : Int), cs)
  | cs => (number? 4 cs).map fun (n, cs) => ((n : Int), cs)

def mark? (c : Char) (cs : List Char) : Option (List Char) :=
  match cs.dropWhile isBlank with
  | d :: cs => if c = d then some cs else none
  | [] => none

/-- Nine digits of a fraction count, the rest are passed over. -/
def fraction? : List Char → Option (Nat × List Char)
  | '.' :: cs =>
      let ds := cs.takeWhile Char.isDigit
      if ds.isEmpty then none
      else
        let kept := ds.take 9
        some (natOf kept * Nat.pow 10 (9 - kept.length), cs.dropWhile Char.isDigit)
  | cs => some (0, cs)

def twoDigits? : List Char → Option (Nat × List Char)
  | a :: b :: cs => if a.isDigit && b.isDigit then some (natOf [a, b], cs) else none
  | _ => none

def offset? (cs : List Char) : Option (Int × List Char) :=
  match cs with
  | 'Z' :: cs | 'z' :: cs => some (0, cs)
  | a :: b :: c :: cs' =>
      if a.toUpper = 'U' ∧ b.toUpper = 'T' ∧ c.toUpper = 'C' then some (0, cs') else signed cs
  | cs => signed cs
where
  signed : List Char → Option (Int × List Char)
    | '+' :: cs => hours cs
    | '-' :: cs => (hours cs).map fun (n, cs) => (-n, cs)
    | '\u2212' :: cs => (hours cs).map fun (n, cs) => (-n, cs)
    | _ => none
  hours (cs : List Char) : Option (Int × List Char) := do
    let (h, cs) ← twoDigits? cs
    let (m, cs) ← twoDigits? (cs.dropWhile fun c => c == ':' || isBlank c)
    if m < 60 ∧ h < 24 then return ((h * 3600 + m * 60 : Nat), cs) else none

/-- A date, a `T` or a space, a time and an offset. White space may stand between the parts. -/
def parse? (s : String) : Option Timestamp := do
  let (year, cs) ← year? s.toList
  let (month, cs) ← spaced? 2 (← mark? '-' cs)
  let (day, cs) ← spaced? 2 (← mark? '-' cs)
  let cs ← match cs with
    | 'T' :: cs | 't' :: cs | ' ' :: cs => some cs
    | _ => none
  let (hour, cs) ← spaced? 2 cs
  let (minute, cs) ← spaced? 2 (← mark? ':' cs)
  let (second, cs) ← spaced? 2 (← mark? ':' cs)
  let (nanos, cs) ← fraction? cs
  let (east, cs) ← offset? (cs.dropWhile isBlank)
  guard (cs.all isBlank)
  guard (firstYear ≤ year ∧ year ≤ lastYear ∧ 1 ≤ month ∧ month ≤ 12)
  guard (1 ≤ day ∧ day ≤ daysInMonth year month ∧ hour < 24 ∧ minute < 60 ∧ second ≤ 60)
  let clock : Int := hour * 3600 + minute * 60 + min second 59
  let seconds := daysOfDate year month day * 86400 + clock - east
  guard (firstSecond ≤ seconds ∧ seconds < endSecond)
  return ⟨seconds, if second = 60 then nanos + 1000000000 else nanos⟩

end Reading

def padded (width n : Nat) : List Char :=
  let ds := Nat.toDigits 10 n
  List.replicate (width - ds.length) '0' ++ ds

def yearText (year : Int) : List Char :=
  if 0 ≤ year ∧ year ≤ 9999 then padded 4 year.toNat
  else (if year < 0 then '-' else '+') :: padded 4 year.natAbs

def fractionText (nanos : Nat) : List Char :=
  if nanos = 0 then []
  else if nanos % 1000000 = 0 then '.' :: padded 3 (nanos / 1000000)
  else if nanos % 1000 = 0 then '.' :: padded 6 (nanos / 1000)
  else '.' :: padded 9 nanos

def civilText (t : Timestamp) : List Char :=
  let (year, month, day) := dateOfDays (t.seconds.fdiv 86400)
  let clock := (t.seconds.fmod 86400).toNat
  let leap := 1000000000 ≤ t.nanos
  let second := clock % 60 + if leap then 1 else 0
  yearText year ++ '-' :: padded 2 month.toNat ++ '-' :: padded 2 day.toNat ++ 'T' ::
    padded 2 (clock / 3600) ++ ':' :: padded 2 (clock / 60 % 60) ++ ':' :: padded 2 second ++
    fractionText (t.nanos % 1000000000)

def text (t : Timestamp) : String :=
  .ofList (t.civilText ++ ['Z'])

def offsetText (t : Timestamp) : String :=
  .ofList (t.civilText ++ "+00:00".toList)

end Timestamp

end Advisor
