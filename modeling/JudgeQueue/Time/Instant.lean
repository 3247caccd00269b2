import JudgeQueue.Text.Numeral
import JudgeQueue.Time.Calendar
/-!
# Instants

A point in time, kept as nanoseconds since the start of 1970 in UTC and
written in RFC 3339 with as few fraction digits as are exact among none,
three, six and nine. Reading accepts any offset and is lenient about blanks
and about missing leading zeros.
-/

namespace JudgeQueue

/-- A point in time. Within a leap second the count is that of the second
before it, and `leap` is set. -/
structure Instant where
  nanos : Int
  leap : Bool := false
deriving DecidableEq, Repr

namespace Instant

/-- A second in nanoseconds. -/
def second : Int := 1000000000

/-- The reading of a clock without leap seconds: a leap second falls
together with the second after it. -/
def ticks (t : Instant) : Int :=
  t.nanos + if t.leap then second else 0

/-- The second of the day. -/
def clockSecond (t : Instant) : Int :=
  t.nanos / second % 86400

/-- The leap second of `t` as far as it counts against `u`: it does unless
`t` stands at an earlier second of its day than `u`. -/
def leapAgainst (t u : Instant) : Int :=
  if t.leap && u.clockSecond ≤ t.clockSecond then second else 0

/-- The nanoseconds from `b` to `a`. -/
def since (a b : Instant) : Int :=
  a.nanos - b.nanos + a.leapAgainst b - b.leapAgainst a

/-- What a clock without leap seconds shows some milliseconds later. -/
def advance (t : Instant) (millis : Int) : Instant :=
  ⟨t.ticks + millis * 1000000, false⟩

/-! ## Writing -/

/-- A number with leading zeros up to a width. -/
def padded (width n : Nat) : String :=
  let digits := toString n
  String.ofList (List.replicate (width - digits.length) '0') ++ digits

/-- A year: four digits, or a sign and at least four digits outside the
first ten thousand years. -/
def yearText (year : Int) : String :=
  if 0 ≤ year && year ≤ 9999 then padded 4 year.toNat
  else if year < 0 then "-" ++ padded 4 year.natAbs
  else "+" ++ padded 4 year.natAbs

/-- The fraction of a second, in the fewest of zero, three, six and nine
digits that are exact. -/
def fractionText (nanos : Nat) : String :=
  if nanos = 0 then ""
  else if nanos % 1000000 = 0 then "." ++ padded 3 (nanos / 1000000)
  else if nanos % 1000 = 0 then "." ++ padded 6 (nanos / 1000)
  else "." ++ padded 9 nanos

/-- The RFC 3339 text in UTC. -/
def toText (t : Instant) : String :=
  let seconds := t.nanos / second
  let fraction := (t.nanos % second).toNat
  let date := Date.ofDays (seconds / 86400)
  let clock := (seconds % 86400).toNat
  let last := clock % 60 + if t.leap then 1 else 0
  yearText date.year ++ "-" ++ padded 2 date.month ++ "-" ++ padded 2 date.day ++ "T" ++
    padded 2 (clock / 3600) ++ ":" ++ padded 2 (clock / 60 % 60) ++ ":" ++ padded 2 last ++
    fractionText fraction ++ "Z"

/-! ## Reading -/

/-- Blanks that may stand between the parts of a time. -/
def isBlank (c : Char) : Bool :=
  let n := c.toNat
  (9 ≤ n && n ≤ 13) || n = 0x20 || n = 0x85 || n = 0xA0 || n = 0x1680 ||
    (0x2000 ≤ n && n ≤ 0x200A) || n = 0x2028 || n = 0x2029 || n = 0x202F || n = 0x205F ||
    n = 0x3000

/-- The text without leading blanks. -/
def skipBlanks (cs : List Char) : List Char :=
  cs.dropWhile isBlank

/-- Reads one digit or more, at most `width` of them. -/
def readNumber (width : Nat) (cs : List Char) : Option (Nat × List Char) :=
  let digits := (cs.take width).takeWhile Numeral.isDigit
  if digits.isEmpty then none else some (Numeral.valueOf digits, cs.drop digits.length)

/-- Reads a number of a date or a time, after blanks. -/
def readField (width : Nat) (cs : List Char) : Option (Nat × List Char) :=
  readNumber width (skipBlanks cs)

/-- Reads a year: up to four digits, or a sign and any number of digits. -/
def readYear (cs : List Char) : Option (Int × List Char) :=
  match skipBlanks cs with
  | '-' :: cs => (readNumber cs.length cs).map fun (n, cs) => (-(n : Int), cs)
  | '+' :: cs => (readNumber cs.length cs).map fun (n, cs) => ((n : Int), cs)
  | cs => (readNumber 4 cs).map fun (n, cs) => ((n : Int), cs)

/-- Reads the character `c` after blanks. -/
def readMark (c : Char) (cs : List Char) : Option (List Char) :=
  match skipBlanks cs with
  | d :: cs => if d = c then some cs else none
  | [] => none

/-- Reads the nanoseconds after the point; digits after the ninth are
dropped. -/
def readFraction : List Char → Option (Nat × List Char)
  | '.' :: cs =>
    let digits := cs.takeWhile Numeral.isDigit
    let kept := digits.take 9
    if kept.isEmpty then none
    else some (Numeral.valueOf kept * Nat.pow 10 (9 - kept.length), cs.drop digits.length)
  | cs => some (0, cs)

/-- Reads the two digits of an offset's hours or minutes. -/
def readPair : List Char → Option (Nat × List Char)
  | a :: b :: cs =>
    if Numeral.isDigit a && Numeral.isDigit b then some (Numeral.valueOf [a, b], cs) else none
  | _ => none

/-- Reads the hours and minutes after the sign of an offset, as seconds. -/
def readOffsetSpan (cs : List Char) : Option (Int × List Char) := do
  let (hours, cs) ← readPair cs
  let (minutes, cs) ← readPair (cs.dropWhile fun c => c = ':' || isBlank c)
  if minutes < 60 && hours < 24 then some ((hours * 3600 + minutes * 60 : Nat), cs) else none

/-- Reads what a text says about its offset from UTC, in seconds. -/
def readOffset : List Char → Option (Int × List Char)
  | 'Z' :: cs => some (0, cs)
  | 'z' :: cs => some (0, cs)
  | '+' :: cs => readOffsetSpan cs
  | '-' :: cs => (readOffsetSpan cs).map fun (n, cs) => (-n, cs)
  | '−' :: cs => (readOffsetSpan cs).map fun (n, cs) => (-n, cs)
  | u :: t :: c :: cs =>
    if u.toLower = 'u' && t.toLower = 't' && c.toLower = 'c' then some (0, cs) else none
  | _ => none

/-- Reads a date and moves past the separator after it. -/
def readDate (cs : List Char) : Option (Date × List Char) := do
  let (year, cs) ← readYear cs
  let cs ← readMark '-' cs
  let (month, cs) ← readField 2 cs
  let cs ← readMark '-' cs
  let (day, cs) ← readField 2 cs
  let date : Date := ⟨year, month, day⟩
  if !date.isValid then none
  match cs with
  | c :: cs => if c = 'T' || c = 't' || c = ' ' then some (date, cs) else none
  | [] => none

/-- The instant that a text names. Both the date in the text and the date in
UTC lie in the years of instants. -/
def ofText? (text : String) : Option Instant := do
  let (date, cs) ← readDate text.toList
  let (hour, cs) ← readField 2 cs
  let cs ← readMark ':' cs
  let (minute, cs) ← readField 2 cs
  let cs ← readMark ':' cs
  let (sec, cs) ← readField 2 cs
  let (fraction, cs) ← readFraction cs
  let (offset, cs) ← readOffset (skipBlanks cs)
  if !(skipBlanks cs).isEmpty || hour > 23 || minute > 59 || sec > 60 then none
  let leap := sec = 60
  let clock : Nat := hour * 3600 + minute * 60 + if leap then 59 else sec
  let seconds := date.toDays * 86400 + clock - offset
  if Date.isYear (Date.ofDays (seconds / 86400)).year then
    some ⟨seconds * second + fraction, leap⟩
  else none

end Instant

end JudgeQueue
