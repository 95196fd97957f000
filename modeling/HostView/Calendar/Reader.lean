import HostView.Calendar.Moment
import HostView.Text.Decimal

/-!
# Reading moments of time

A moment is written in the standard way, as in `2020-02-29T12:30:00.5+01:00`, where all from the
month on and the time of day may be left out, or in one of many other ways, of which a reader makes
the best it can: numbers, names of months and zones, and words in brackets, in any order. Where no
zone is given the time is that of the zone from which others count.
-/

namespace HostView.Calendar

/-! ### Parts -/

/-- The character is an ASCII digit. -/
def isDigit (c : Char) : Bool := (Decimal.digit? c).isSome

/-- A number of at least so many digits, and no more than `most`, and what follows. -/
def number? (least most : Nat) (cs : List Char) : Option (Nat × List Char) :=
  let digits := (cs.takeWhile isDigit).take most
  if digits.length < least then none
  else (Decimal.continueFrom 0 digits).map fun n => (n, cs.drop digits.length)

/-- What follows a word, which may be written in small letters. -/
def after? (word : String) (cs : List Char) : Option (List Char) :=
  let letters := word.toList
  if (cs.take letters.length).map Char.toUpper = letters then some (cs.drop letters.length)
  else none

/-- The thousandths of a second that may follow it, and what follows. -/
def milliseconds (cs : List Char) : Nat × List Char :=
  match cs with
  | '.' :: rest | ',' :: rest =>
    let digits := (rest.takeWhile isDigit).take 9
    let thousandths := (digits ++ ['0', '0', '0']).take 3
    if digits.isEmpty then (0, cs)
    else ((Decimal.continueFrom 0 thousandths).getD 0, rest.drop digits.length)
  | cs => (0, cs)

/-- A time of day, from which seconds may be left out. -/
structure Clock where
  hour : Nat
  minute : Nat
  second : Nat
  millisecond : Nat

/-- The seconds of a time of day, if they are given, and what follows. -/
def seconds? (cs : List Char) : Option (Nat × Nat × List Char) :=
  match cs with
  | ':' :: rest => do
    let (second, rest) ← number? 2 2 rest
    let (millisecond, rest) := milliseconds rest
    return (second, millisecond, rest)
  | cs => some (0, 0, cs)

/-- The minutes by which a numbered zone is ahead, and what follows. A strict one has two or four
digits, unless a mark stands between hours and minutes. -/
def numberedZone? (strict : Bool) (cs : List Char) : Option (Nat × List Char) := do
  let (n, rest) ← number? 1 9 cs
  let count := cs.length - rest.length
  if strict && count ≠ 2 && count ≠ 4 then none
  else
    let kept := if 4 < count then 4 - count % 2 else count
    let n := n / 10 ^ (count - kept)
    let (hours, minutes, rest) ←
      if 2 < kept then some (n / 100, n % 100, rest)
      else
        match rest with
        | ':' :: rest => (number? 2 2 rest).map fun (minutes, rest) => (n, minutes, rest)
        | rest => some (n, 0, rest)
    if 23 < hours ∨ 59 < minutes then none else return (hours * 60 + minutes, rest)

/-- The minutes by which a zone is ahead, and what follows. -/
def zone? (strict : Bool) : List Char → Option (Int × List Char)
  | '+' :: rest => (numberedZone? strict rest).map fun (n, rest) => ((n : Int), rest)
  | '-' :: rest => (numberedZone? strict rest).map fun (n, rest) => (-(n : Int), rest)
  | 'Z' :: rest => some (0, rest)
  | _ => none

/-! ### The standard way -/

/-- A moment and the minutes by which its zone is ahead. -/
abbrev Reading := Moment × Int

/-- The year, of four digits, or of six after a sign, and what follows. -/
def standardYear? : List Char → Option (Int × List Char)
  | '+' :: rest => (number? 6 6 rest).map fun (n, rest) => ((n : Int), rest)
  | '-' :: rest =>
    (number? 6 6 rest).bind fun (n, rest) => if n = 0 then none else some (-(n : Int), rest)
  | cs => (number? 4 4 cs).map fun (n, rest) => ((n : Int), rest)

/-- A month or a day after a mark, the first if there is none, and what follows. -/
def standardPart? : List Char → Option (Nat × List Char)
  | '-' :: rest => (number? 2 2 rest).bind fun (n, rest) => if n = 0 then none else some (n, rest)
  | cs => some (1, cs)

/-- The zone at the end. -/
def lastZone? : List Char → Option Int
  | [] => some 0
  | cs => (zone? true cs).bind fun (z, rest) => if rest.isEmpty then some z else none

/-- A moment written in the standard way. One whose time of day is cut off is out of range. -/
def standard? (cs : List Char) : Option Reading := do
  let (year, cs) ← standardYear? cs
  let hasMonth := cs.head? = some '-'
  let (month, cs) ← standardPart? cs
  let (day, cs) ← if hasMonth then standardPart? cs else some (1, cs)
  let date : Moment := ⟨year, month - 1, day, 0, 0, 0, 0⟩
  match cs with
  | 'T' :: rest =>
    let clock? : Option (Nat × Nat × List Char) := do
      let (hour, rest) ← number? 2 2 rest
      let (minute, rest) ← number? 2 2 (← after? ":" rest)
      return (hour, minute, rest)
    match clock? with
    | none => return ({ date with hour := 100 }, 0)
    | some (hour, minute, rest) => do
      let (second, millisecond, rest) ← seconds? rest
      return ({ date with hour, minute, second, millisecond }, ← lastZone? rest)
  | rest => return (date, ← lastZone? rest)

/-! ### Other ways -/

/-- What is known of a moment while it is read. -/
structure Draft where
  year : Option Int
  month : Option Nat
  clock : Option Clock
  zone : Int
  /-- The numbers that may be a day, a month or a year. -/
  numbers : List Nat

/-- The first three letters of the names of the months. -/
def months : List String :=
  ["JAN", "FEB", "MAR", "APR", "MAY", "JUN", "JUL", "AUG", "SEP", "OCT", "NOV", "DEC"]

/-- The names of zones, with the hours by which they are ahead. -/
def zones : List (String × Int) :=
  [("GMT", 0), ("UTC", 0), ("UT", 0), ("EDT", -4), ("EST", -5), ("CDT", -5), ("CST", -6),
    ("MDT", -6), ("MST", -7), ("PDT", -7), ("PST", -8), ("WET", 0), ("WEST", 1), ("CET", 1),
    ("CEST", 2), ("EET", 2), ("EEST", 3)]

/-- A month named at the start of a text, and what follows its name. -/
def month? (cs : List Char) : Option (Nat × List Char) :=
  months.zipIdx.findSome? fun (name, i) =>
    (after? name cs).map fun rest =>
      (i + 1, rest.dropWhile fun c => !(isDigit c || [' ', '-', '/', '('].contains c))

/-- A zone named at the start of a text, and what follows its name. -/
def namedZone? (cs : List Char) : Option (Int × List Char) :=
  zones.findSome? fun (name, hours) => (after? name cs).map fun rest => (60 * hours, rest)

/-- What follows brackets, which may hold others; `depth` of them are open. -/
def afterBrackets? : Nat → List Char → Option (List Char)
  | 0, cs => some cs
  | _, [] => none
  | depth + 1, '(' :: rest => afterBrackets? (depth + 2) rest
  | depth + 1, ')' :: rest => afterBrackets? depth rest
  | depth, _ :: rest => afterBrackets? depth rest

/-- A year of which two digits are given. -/
def fullYear (n : Nat) : Int :=
  if n < 50 then n + 2000 else if n < 100 then n + 1900 else n

/-- The text without marks at its start that stand between parts. -/
def afterMarks (cs : List Char) : List Char :=
  cs.dropWhile fun c => ['-', '/', '.', ','].contains c

/-- Reads the time of day after its hour. -/
def clock? (hour : Nat) (cs : List Char) : Option (Clock × List Char) := do
  let (minute, cs) ← number? 1 2 cs
  match cs with
  | ':' :: rest => do
    let (second, rest) ← number? 1 2 rest
    let (millisecond, rest) := milliseconds rest
    return (⟨hour, minute, second, millisecond⟩, rest)
  | [] | ' ' :: _ => return (⟨hour, minute, 0, 0⟩, cs)
  | _ => none

/-- Reads a part that begins with a digit. -/
def numberPart? (d : Draft) (n : Nat) (count : Nat) (rest : List Char) :
    Option (Draft × List Char) :=
  match rest with
  | ':' :: rest => do
    let (clock, rest) ← clock? n rest
    return ({ d with clock := some clock }, rest)
  | rest =>
    if 2 < count then some ({ d with year := some n }, rest)
    else if n < 1 ∨ 31 < n then some ({ d with year := some (fullYear n) }, rest)
    else if d.numbers.length = 3 then none
    else some ({ d with numbers := d.numbers ++ [n] }, rest)

/-- Reads a part that begins with a sign: a zone after a time of day, or else a year. -/
def signedPart? (d : Draft) (cs : List Char) : Option (Draft × List Char) :=
  match (if d.clock.isSome then zone? false cs else none) with
  | some (zone, rest) => some ({ d with zone }, rest)
  | none =>
    match number? 1 9 (cs.drop 1) with
    | none => some (d, cs.drop 1)
    | some (n, rest) =>
      if cs.head? = some '-' then
        if n = 0 then none else some ({ d with year := some (-(n : Int)) }, rest)
      else some ({ d with year := some n }, rest)

/-- The time of day in the half of the day that is named. -/
def Clock.inHalf? (c : Clock) (afternoon : Bool) : Option Clock :=
  if afternoon then some (if c.hour = 12 then c else { c with hour := c.hour + 12 })
  else if 12 < c.hour then none
  else some (if c.hour = 12 then { c with hour := 0 } else c)

/-- Reads a part that is a word. A word that says nothing may only come first. -/
def wordPart? (d : Draft) (cs : List Char) : Option (Draft × List Char) :=
  match cs with
  | '(' :: rest => (afterBrackets? 1 rest).map fun rest => (d, afterMarks rest)
  | ')' :: _ => none
  | cs =>
    if d.year.isSome || d.month.isSome || d.clock.isSome || !d.numbers.isEmpty then none
    else some (d, afterMarks (cs.dropWhile fun c => !([' ', '-', '/', '('].contains c)))

/-- Reads a part that is a name. -/
def namePart? (d : Draft) (cs : List Char) : Option (Draft × List Char) :=
  match month? cs with
  | some (month, rest) => some ({ d with month := some month }, afterMarks rest)
  | none =>
    let half? := (after? "PM" cs).map (true, ·) |>.or ((after? "AM" cs).map (false, ·))
    match d.clock, half? with
    | some clock, some (afternoon, rest) =>
      (clock.inHalf? afternoon).map fun clock => ({ d with clock := some clock }, rest)
    | _, _ =>
      match namedZone? cs with
      | some (zone, rest) => some ({ d with zone }, rest)
      | none => wordPart? d cs

/-- Reads the next part. -/
def part? (d : Draft) (cs : List Char) : Option (Draft × List Char) :=
  match cs.head? with
  | some '+' | some '-' => (signedPart? d cs).map fun (d, rest) => (d, afterMarks rest)
  | _ =>
    match number? 1 9 cs with
    | some (n, rest) =>
      (numberPart? d n (cs.length - rest.length) rest).map fun (d, rest) => (d, afterMarks rest)
    | none => namePart? d cs

/-- Reads all parts; the bound is on their number. -/
def parts? : Nat → Draft → List Char → Option Draft
  | 0, d, _ => some d
  | n + 1, d, cs => do
    match cs.dropWhile (· = ' ') with
    | [] => return d
    | cs =>
      let (d, rest) ← part? d cs
      parts? n d rest

/-- The year, month and day of a draft: what is not known by a name or by its size is known by the
order of the numbers. -/
def Draft.date? (d : Draft) : Option (Int × Nat × Nat) :=
  let year := d.year.getD 2001
  let month := d.month.getD 1
  if 3 < d.numbers.length + d.year.toList.length + d.month.toList.length then none
  else
    match d.numbers with
    | [] => if d.year.isSome then some (year, month, 1) else none
    | [n] => some (if d.month.isSome then (year, month, n) else (year, n, 1))
    | [m, n] =>
      some (if d.year.isNone && d.month.isSome then (fullYear n, month, m) else (year, m, n))
    | m :: n :: y :: _ => some (fullYear y, m, n)

/-- A moment written in another way. -/
def other? (cs : List Char) : Option Reading := do
  let d ← parts? (cs.length + 1) ⟨none, none, none, 0, []⟩ cs
  let (year, month, day) ← d.date?
  let clock := d.clock.getD ⟨0, 0, 0, 0⟩
  if month = 0 ∨ day = 0 then none
  else
    return (⟨year, month - 1, day, clock.hour, clock.minute, clock.second, clock.millisecond⟩,
      d.zone)

/-- The time that a text writes, if it does. -/
def time? (cs : List Char) : Option Int := do
  let (moment, zone) ← (standard? cs).or (other? cs)
  if moment.isValid then return (← moment.time?) - 60000 * zone else none

end HostView.Calendar
