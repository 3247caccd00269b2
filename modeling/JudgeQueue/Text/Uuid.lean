import JudgeQueue.Text.Bytes
/-!
# Universally unique identifiers

Sixteen bytes, written as thirty-two digits in five groups. Reading also
accepts the digits without hyphens, the groups in braces and the groups as a
URN; case does not matter.
-/

namespace JudgeQueue

/-- A universally unique identifier. -/
structure Uuid where
  bytes : Bytes
deriving DecidableEq, Repr

namespace Uuid

/-- How many digits each group has. -/
def groups : List Nat := [8, 4, 4, 4, 12]

/-- Splits digits into groups with a hyphen between them. -/
def group : List Nat → List Char → List Char
  | [], _ => []
  | [n], cs => cs.take n
  | n :: ns, cs => cs.take n ++ '-' :: group ns (cs.drop n)

/-- The digits of groups with a hyphen between them. -/
def ungroup? : List Nat → List Char → Option (List Char)
  | [], cs => if cs.isEmpty then some [] else none
  | [n], cs => if cs.length = n then some cs else none
  | n :: ns, cs =>
    match cs.drop n with
    | '-' :: rest => (ungroup? ns rest).map (cs.take n ++ ·)
    | _ => none

/-- The digits of an identifier in any of its written forms. -/
def digits? (cs : List Char) : Option (List Char) :=
  let urn := "urn:uuid:".toList
  if cs.length = 32 then some cs
  else if cs.length = 38 && cs.head? = some '\x7b' && cs.getLast? = some '\x7d' then
    ungroup? groups cs.tail.dropLast
  else if cs.length = 45 && (cs.take urn.length).map Char.toLower = urn then
    ungroup? groups (cs.drop urn.length)
  else ungroup? groups cs

/-- Reads an identifier. -/
def ofText? (text : String) : Option Uuid := do
  let digits ← digits? text.toList
  let bytes ← Hex.decode? digits
  some ⟨bytes⟩

/-- The identifier in five groups of lower-case digits. -/
def toText (u : Uuid) : String :=
  String.ofList (group groups (Hex.encode u.bytes).toList)

end Uuid

end JudgeQueue
