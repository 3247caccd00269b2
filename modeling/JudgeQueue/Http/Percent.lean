import JudgeQueue.Text.Bytes
import JudgeQueue.Text.Split
import JudgeQueue.Text.Utf8
/-!
# Percent encoding

A percent sign with two hexadecimal digits stands for a byte. One that lacks
its digits stands for itself. In a query a plus sign stands for a blank, and
a query is a list of named values.
-/

namespace JudgeQueue

namespace Percent

/-- The value of a byte that is a hexadecimal digit. -/
def digit? (b : UInt8) : Option Nat :=
  Hex.value? (Char.ofNat b.toNat)

/-- The percent sign. -/
def sign : UInt8 := 37

/-- Replaces each encoded byte by the byte. -/
def decodeBytes : Bytes → Bytes
  | b :: high :: low :: rest =>
    if b = sign then
      match digit? high, digit? low with
      | some h, some l => UInt8.ofNat (16 * h + l) :: decodeBytes rest
      | _, _ => b :: decodeBytes (high :: low :: rest)
    else b :: decodeBytes (high :: low :: rest)
  | b :: rest => b :: decodeBytes rest
  | [] => []

/-- The text that an encoded text stands for, unless its bytes are none. -/
def decode? (text : String) : Option String :=
  Utf8.decode? (decodeBytes (Utf8.encode text))

/-- The text of a name or a value in a query; bytes that are no text are
replaced. -/
def decodeForm (cs : List Char) : String :=
  let blanked := cs.map fun c => if c = '+' then ' ' else c
  Utf8.decodeLossy (decodeBytes (Utf8.encode (String.ofList blanked)))

/-- The named values of a query. A name without an equals sign has the empty
value. -/
def formPairs (query : String) : List (String × String) :=
  ((Split.parts '&' query.toList).filter fun part => !part.isEmpty).map fun part =>
    let (name, value) := Split.atFirst '=' part
    (decodeForm name, decodeForm (value.getD []))

end Percent

end JudgeQueue
