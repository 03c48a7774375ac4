import Synopsis.Text.Basic

/-!
# Dates and times

A moment is a date, `2024-01-31`, or a date with a time of day, a fraction of a second and a zone. By itself
it is written with a space between date and time and the fraction in six digits, and inside other data as
the list of its numbers.
-/

namespace Synopsis

/-- The time that a zone is ahead or, in the west, behind. -/
structure Zone where
  west : Bool
  hour : Nat
  minute : Nat
  deriving DecidableEq, Repr

structure Clock where
  hour : Nat
  minute : Nat
  second : Nat
  fraction : Text
  zone : Option Zone
  deriving DecidableEq, Repr

structure Moment where
  year : Nat
  month : Nat
  day : Nat
  clock : Option Clock
  deriving DecidableEq, Repr

def Zone.minutes (z : Zone) : Nat :=
  60 * z.hour + z.minute

namespace Moment

def isDigit (c : Char) : Bool :=
  '0' ≤ c && c ≤ '9'

def numberOf (t : Text) : Nat :=
  t.foldl (fun n c => 10 * n + (c.toNat - '0'.toNat)) 0

def digits? (least most : Nat) (t : Text) : Option (Nat × Text) :=
  let run := (t.take most).takeWhile isDigit
  if run.length < least then none else some (numberOf run, t.drop run.length)

def mark? (c : Char) : Text → Option Text
  | d :: rest => if c = d then some rest else none
  | [] => none

def isGap (c : Char) : Bool :=
  c == ' ' || c == '\t'

def zone? (t : Text) : Option (Option Zone) :=
  match t, t.dropWhile isGap with
  | [], _ => some none
  | _, ['Z'] => some (some ⟨false, 0, 0⟩)
  | _, sign :: rest => do
    guard (sign = '+' ∨ sign = '-')
    let (hour, rest) ← digits? 1 2 rest
    match rest with
    | [] => return some ⟨sign = '-', hour, 0⟩
    | ':' :: rest =>
      let (minute, rest) ← digits? 2 2 rest
      guard rest.isEmpty
      return some ⟨sign = '-', hour, minute⟩
    | _ => none
  | _, [] => none

def clock? (t : Text) : Option Clock := do
  let (hour, t) ← digits? 1 2 t
  let (minute, t) ← digits? 2 2 (← mark? ':' t)
  let (second, t) ← digits? 2 2 (← mark? ':' t)
  let (fraction, t) := match t with
    | '.' :: rest => (rest.takeWhile isDigit, rest.dropWhile isDigit)
    | _ => ([], t)
  return ⟨hour, minute, second, fraction, ← zone? t⟩

/-- Reads a moment by its form alone. -/
def ofText? (t : Text) : Option Moment := do
  let (year, rest) ← digits? 4 4 t
  let (month, rest) ← digits? 1 2 (← mark? '-' rest)
  let (day, rest) ← digits? 1 2 (← mark? '-' rest)
  match rest with
  | [] => return ⟨year, month, day, none⟩
  | c :: rest =>
    guard (c = 'T' ∨ c = 't' ∨ isGap c)
    return ⟨year, month, day, some (← clock? (if isGap c then rest.dropWhile isGap else rest))⟩

def isLeap (year : Nat) : Bool :=
  year % 4 == 0 && (year % 100 != 0 || year % 400 == 0)

def daysOf (year month : Nat) : Nat :=
  if month = 2 then (if isLeap year then 29 else 28)
  else if [4, 6, 9, 11].contains month then 30
  else 31

def clockIsValid (c : Clock) : Bool :=
  c.hour < 24 && c.minute < 60 && c.second < 60 && c.zone.all fun z => z.minutes < 24 * 60

def isValid (m : Moment) : Bool :=
  1 ≤ m.year && 1 ≤ m.month && m.month ≤ 12 && 1 ≤ m.day && m.day ≤ daysOf m.year m.month &&
    m.clock.all clockIsValid

def daysBefore (year : Nat) : Nat :=
  let last := year - 1
  365 * last + last / 4 - last / 100 + last / 400

def ordinal (m : Moment) : Nat :=
  daysBefore m.year + (List.range (m.month - 1)).foldr (fun i days => daysOf m.year (i + 1) + days) 0 + m.day

def padded (width n : Nat) : Text :=
  let t := Text.ofNat n
  List.replicate (width - t.length) '0' ++ t

def micros (digits : Text) : Text :=
  digits.take 6 ++ List.replicate (6 - digits.length) '0'

/-- What two moments are compared by: dates by their day, times by their place on the same clock. -/
def instant (m : Moment) : Nat × Int :=
  match m.clock with
  | none => (0, m.ordinal)
  | some c =>
    let second : Int := ((m.ordinal * 24 + c.hour) * 60 + c.minute) * 60 + c.second
    match c.zone with
    | none => (1, second * 1000000 + numberOf (micros c.fraction))
    | some z =>
      let ahead : Int := if z.west then -(60 * z.minutes : Nat) else (60 * z.minutes : Nat)
      (2, (second - ahead) * 1000000 + numberOf (micros c.fraction))

def fractionText (digits : Text) : Text :=
  if (micros digits).all (· == '0') then [] else '.' :: micros digits

def zoneText (z : Zone) : Text :=
  (if z.west && z.minutes != 0 then '-' else '+')
    :: padded 2 (z.minutes / 60) ++ ':' :: padded 2 (z.minutes % 60)

def clockText (c : Clock) : Text :=
  padded 2 c.hour ++ ':' :: padded 2 c.minute ++ ':' :: padded 2 c.second ++ fractionText c.fraction
    ++ (c.zone.map zoneText).getD []

def toText (m : Moment) : Text :=
  padded 4 m.year ++ '-' :: padded 2 m.month ++ '-' :: padded 2 m.day
    ++ (match m.clock with
      | some c => ' ' :: clockText c
      | none => [])

def call (name : String) (arguments : List Text) : Text :=
  name.toList ++ '(' :: [',', ' '].intercalate arguments ++ [')']

/-- A zone behind is so many seconds after one day less. -/
def innerZone (z : Zone) : Text :=
  let seconds := 60 * z.minutes
  if seconds = 0 then "datetime.timezone.utc".toList
  else call "datetime.timezone" [call "datetime.timedelta"
    (if z.west then ["days=-1".toList, "seconds=".toList ++ Text.ofNat (24 * 60 * 60 - seconds)]
      else ["seconds=".toList ++ Text.ofNat seconds])]

/-- A fraction of zero is left out, and then seconds of zero with it. -/
def clockNumbers (c : Clock) : List Nat :=
  let micro := numberOf (micros c.fraction)
  [c.hour, c.minute]
    ++ (if micro != 0 then [c.second, micro] else if c.second != 0 then [c.second] else [])

/-- A moment inside other data. -/
def inner (m : Moment) : Text :=
  match m.clock with
  | none => call "datetime.date" ([m.year, m.month, m.day].map Text.ofNat)
  | some c =>
    call "datetime.datetime" (([m.year, m.month, m.day] ++ clockNumbers c).map Text.ofNat
      ++ (c.zone.map fun z => "tzinfo=".toList ++ innerZone z).toList)

end Moment

end Synopsis
