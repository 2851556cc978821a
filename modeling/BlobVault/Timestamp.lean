import BlobVault.Text.Hex
import BlobVault.Text.Utf8

/-!
# Points in time

Jobs record when they were started and completed.  A point in time is a number of seconds since
1970 with nanoseconds, which reach past a second during a leap second.  It is written in the
RFC 3339 form in universal time, with as many groups of three decimals as needed, and read from a
form that is a little more liberal with spaces.
-/

namespace BlobVault

/-- A point in time. -/
structure Timestamp where
  /-- Seconds since the start of 1970. -/
  seconds : Int
  /-- Nanoseconds after the second; a leap second has those from 10^9 on. -/
  nanos : Nat
  deriving DecidableEq, Repr, Inhabited

namespace Timestamp

/-- The point in time a number of nanoseconds after the start of 1970. -/
def ofNanos (n : Nat) : Timestamp := ⟨Int.ofNat (n / 1000000000), n % 1000000000⟩

/-! ### The calendar -/

/-- The year has 366 days. -/
def isLeap (year : Int) : Bool := year % 4 = 0 && (year % 100 ≠ 0 || year % 400 = 0)

/-- The days of a month. -/
def monthDays (year : Int) (month : Nat) : Nat :=
  match month with
  | 2 => if isLeap year then 29 else 28
  | 4 | 6 | 9 | 11 => 30
  | _ => 31

/-- Days from the start of 1970 to a date.  Years are counted from March, so that the leap day
comes last. -/
def dayNumber (year : Int) (month day : Nat) : Int :=
  let y := if month ≤ 2 then year - 1 else year
  let m : Int := if month ≤ 2 then month + 9 else month - 3
  365 * y + y / 4 - y / 100 + y / 400 + (153 * m + 2) / 5 + day - 1 - 719468

/-- The date of a number of days from the start of 1970. -/
def dateOf (days : Int) : Int × Nat × Nat :=
  let z := days + 719468
  let era := z / 146097
  let doe := z % 146097
  let yoe := (doe - doe / 1460 + doe / 36524 - doe / 146096) / 365
  let doy := doe - (365 * yoe + yoe / 4 - yoe / 100)
  let mp := (5 * doy + 2) / 153
  let day := (doy - (153 * mp + 2) / 5 + 1).toNat
  let month := (if mp < 10 then mp + 3 else mp - 9).toNat
  let year := yoe + 400 * era + (if month ≤ 2 then 1 else 0)
  (year, month, day)

/-! ### Writing -/

/-- The digits of a number, with zeros before them up to a width. -/
def padded (width n : Nat) : List Char :=
  let ds := Nat.toDigits 10 n
  List.replicate (width - ds.length) '0' ++ ds

/-- A year; those outside four digits have a sign and at least five. -/
def yearDigits (year : Int) : List Char :=
  if 0 ≤ year ∧ year ≤ 9999 then padded 4 year.toNat
  else (if year < 0 then '-' else '+') :: padded 4 year.natAbs

/-- The decimals of a second. -/
def decimals (nanos : Nat) : List Char :=
  if nanos = 0 then []
  else if nanos % 1000000 = 0 then '.' :: padded 3 (nanos / 1000000)
  else if nanos % 1000 = 0 then '.' :: padded 6 (nanos / 1000)
  else '.' :: padded 9 nanos

/-- The text of a point in time. -/
def toText (t : Timestamp) : String :=
  let (year, month, day) := dateOf (t.seconds / 86400)
  let clock := (t.seconds % 86400).toNat
  let leap := if t.nanos < 1000000000 then 0 else 1
  String.ofList (yearDigits year ++ '-' :: padded 2 month ++ '-' :: padded 2 day ++ 'T'
    :: padded 2 (clock / 3600) ++ ':' :: padded 2 (clock / 60 % 60) ++ ':'
    :: padded 2 (clock % 60 + leap) ++ decimals (t.nanos % 1000000000) ++ ['Z'])

/-! ### Reading -/

/-- Why a text is not a point in time. -/
inductive Fault where
  | outOfRange
  | impossible
  | notEnough
  | invalid
  | tooShort
  | tooLong
  deriving DecidableEq, Repr

/-- The text of a fault. -/
def Fault.message : Fault → String
  | .outOfRange => "input is out of range"
  | .impossible => "no possible date and time matching input"
  | .notEnough => "input is not enough for unique date and time"
  | .invalid => "input contains invalid characters"
  | .tooShort => "premature end of input"
  | .tooLong => "trailing input"

/-- The character is a blank of any script. -/
def isBlank (c : Char) : Bool :=
  let n := c.toNat
  (9 ≤ n && n ≤ 13) || n == 32 || n == 0x85 || n == 0xA0 || n == 0x1680
    || (0x2000 ≤ n && n ≤ 0x200A) || n == 0x2028 || n == 0x2029 || n == 0x202F || n == 0x205F
    || n == 0x3000

/-- The text after its leading blanks. -/
def trimStart (cs : List Char) : List Char := cs.dropWhile isBlank

/-- Reads a number of at most `most` digits. -/
def number (most : Nat) (cs : List Char) : Except Fault (Nat × List Char) :=
  let ds := (cs.takeWhile Char.isDigit).take most
  match cs, ds with
  | [], _ => .error .tooShort
  | _, [] => .error .invalid
  | _, _ =>
    let n := ds.foldl (fun n c => 10 * n + (c.toNat - 48)) 0
    if n < Nat.pow 2 63 then .ok (n, cs.drop ds.length) else .error .outOfRange

/-- Reads a number that lies between two bounds, after blanks. -/
def bounded (most low high : Nat) (cs : List Char) : Except Fault (Nat × List Char) := do
  let (n, cs) ← number most (trimStart cs)
  if low ≤ n ∧ n ≤ high then .ok (n, cs) else .error .outOfRange

/-- Reads a year, which may have a sign. -/
def year (cs : List Char) : Except Fault (Int × List Char) := do
  let cs := trimStart cs
  let (n, cs) ← match cs with
    | '-' :: rest => do
      let (n, rest) ← number rest.length rest
      pure (-(n : Int), rest)
    | '+' :: rest => do
      let (n, rest) ← number rest.length rest
      pure ((n : Int), rest)
    | _ => do
      let (n, rest) ← number 4 cs
      pure ((n : Int), rest)
  if -Int.pow 2 31 ≤ n ∧ n < Int.pow 2 31 then .ok (n, cs) else .error .outOfRange

/-- Reads one fixed character, after blanks. -/
def mark (c : Char) (cs : List Char) : Except Fault (List Char) :=
  match trimStart cs with
  | [] => .error .tooShort
  | d :: rest => if d = c then .ok rest else .error .invalid

/-- Reads the decimals of a second as nanoseconds; digits after the ninth are dropped. -/
def fraction (cs : List Char) : Except Fault (Nat × List Char) :=
  match cs with
  | '.' :: rest => do
    let (n, after) ← number 9 rest
    let used := rest.length - after.length
    pure (n * Nat.pow 10 (9 - used), after.dropWhile Char.isDigit)
  | _ => .ok (0, cs)

/-- Reads two digits. -/
def twoDigits (cs : List Char) : Except Fault (Nat × List Char) :=
  match cs with
  | a :: b :: rest =>
    if a.isDigit ∧ b.isDigit then .ok (10 * (a.toNat - 48) + (b.toNat - 48), rest)
    else .error .invalid
  | _ => .error .tooShort

/-- The characters take at least two bytes together. -/
def twoBytes (cs : List Char) : Bool := 2 ≤ Utf8.size cs

/-- Reads hours and minutes of an offset after its sign, as seconds. -/
def hoursMinutes (cs : List Char) : Except Fault (Nat × List Char) := do
  if !twoBytes cs then .error .tooShort
  else
    let (hours, cs) ← match twoDigits cs with
      | .ok r => .ok r
      | .error _ => .error .invalid
    let cs := cs.dropWhile fun c => c = ':' || isBlank c
    if !twoBytes cs then .error .tooShort
    else
      match twoDigits cs with
      | .ok (minutes, rest) =>
        if minutes < 60 then .ok (hours * 3600 + minutes * 60, rest) else .error .outOfRange
      | .error _ => .error .invalid

/-- Reads the offset from universal time in seconds. -/
def offset (cs : List Char) : Except Fault (Int × List Char) :=
  let cs := trimStart cs
  if (cs.take 3).map Char.toUpper = ['U', 'T', 'C'] then .ok (0, cs.drop 3)
  else
    match cs with
    | [] => .error .tooShort
    | c :: rest =>
      if c = 'Z' ∨ c = 'z' then .ok (0, rest)
      else if c = '+' then do
        let (n, rest) ← hoursMinutes rest
        pure ((n : Int), rest)
      else if c = '-' ∨ c.toNat = 0x2212 then do
        let (n, rest) ← hoursMinutes rest
        pure (-(n : Int), rest)
      else .error .invalid

/-- Takes the mark between date and time. -/
def divider (cs : List Char) : Except Fault (List Char) :=
  match cs with
  | [] => .error .notEnough
  | c :: rest => if c = 'T' ∨ c = 't' ∨ c = ' ' then .ok rest else .error .invalid

/-- The seconds since 1970 of a date and time at an offset, if the date exists. -/
def secondsAt (year : Int) (month day clock : Nat) (offset : Int) : Except Fault Int :=
  if year < -262143 ∨ 262142 < year ∨ monthDays year month < day then .error .outOfRange
  else if 86400 ≤ offset.natAbs then .error .outOfRange
  else
    let seconds := dayNumber year month day * 86400 + clock - offset
    if seconds < dayNumber (-262143) 1 1 * 86400 ∨ dayNumber 262143 1 1 * 86400 ≤ seconds then
      .error .impossible
    else .ok seconds

/-- Reads a point in time. -/
def ofText (s : String) : Except Fault Timestamp := do
  let (y, cs) ← year s.toList
  let cs ← mark '-' cs
  let (month, cs) ← bounded 2 1 12 cs
  let cs ← mark '-' cs
  let (day, cs) ← bounded 2 1 31 cs
  let cs ← divider cs
  let (hour, cs) ← bounded 2 0 23 cs
  let cs ← mark ':' cs
  let (minute, cs) ← bounded 2 0 59 cs
  let cs ← mark ':' cs
  let (second, cs) ← bounded 2 0 60 cs
  let (nanos, cs) ← fraction cs
  let cs := trimStart cs
  if cs.isEmpty then .error .notEnough
  else
    let (shift, cs) ← offset cs
    if !(trimStart cs).isEmpty then .error .tooLong
    else
      let (second, nanos) := if second = 60 then (59, nanos + 1000000000) else (second, nanos)
      let seconds ← secondsAt y month day (hour * 3600 + minute * 60 + second) shift
      pure ⟨seconds, nanos⟩

end Timestamp

end BlobVault
