/-!
# Decimal numerals

Whole numbers written with ASCII digits, with or without a sign. Leading
zeros are allowed and nothing else may stand in the text, so a numeral is
read in full or not at all.
-/

namespace JudgeQueue

namespace Numeral

/-- Whether `c` is one of the ten ASCII digits. -/
def isDigit (c : Char) : Bool :=
  '0' ≤ c && c ≤ '9'

/-- The value of an ASCII digit. -/
def digitValue (c : Char) : Nat :=
  c.toNat - '0'.toNat

/-- The number that a run of digits stands for, most significant first. -/
def valueOf (digits : List Char) : Nat :=
  digits.foldl (fun n c => 10 * n + digitValue c) 0

/-- Reads one digit or more, and nothing but digits. -/
def readDigits (cs : List Char) : Option Nat :=
  if cs.isEmpty || !cs.all isDigit then none else some (valueOf cs)

/-- Reads a number that may carry a plus sign. -/
def readUnsigned : List Char → Option Nat
  | '+' :: cs => readDigits cs
  | cs => readDigits cs

/-- Reads a number that may carry either sign. -/
def readSigned : List Char → Option Int
  | '-' :: cs => (readDigits cs).map fun n => -(n : Int)
  | '+' :: cs => (readDigits cs).map Int.ofNat
  | cs => (readDigits cs).map Int.ofNat

/-- A whole number below `bound`, as an unsigned setting is written. -/
def unsignedBelow? (bound : Nat) (text : String) : Option Nat :=
  (readUnsigned text.toList).filter (· < bound)

end Numeral

/-- The least signed number of 64 bits. -/
def minInt64 : Int := -9223372036854775808

/-- The greatest signed number of 64 bits. -/
def maxInt64 : Int := 9223372036854775807

/-- The greatest unsigned number of 64 bits. -/
def maxNat64 : Nat := 18446744073709551615

/-- Whether `i` is a signed number of 64 bits. -/
def isInt64 (i : Int) : Bool :=
  minInt64 ≤ i && i ≤ maxInt64

/-- A signed 64-bit number, as an identifier is written in a path. -/
def Numeral.int64? (text : String) : Option Int :=
  (readSigned text.toList).filter isInt64

end JudgeQueue
