import JudgeQueue.Text.Bytes
/-!
# UTF-8

Reading bytes as text, one byte at a time. The scan yields one item for each
character and one for each maximal part that no character begins with, so
the strict reading refuses exactly where the lenient one writes a
replacement character.
-/

namespace JudgeQueue

namespace Utf8

/-- What the scan still expects: nothing, or the rest of a character whose
next byte lies between two bounds. -/
inductive State
  | start
  | pending (value : Nat) (missing : Nat) (low high : Nat)

/-- What the first byte of a character announces. `none` for a byte that
begins no character; a byte below `0x80` is a character of its own. -/
def lead (b : Nat) : Option (Char ⊕ State) :=
  if b < 0x80 then some (.inl (Char.ofNat b))
  else if b < 0xC2 then none
  else if b < 0xE0 then some (.inr (.pending (b - 0xC0) 1 0x80 0xBF))
  else if b = 0xE0 then some (.inr (.pending 0 2 0xA0 0xBF))
  else if b = 0xED then some (.inr (.pending 0xD 2 0x80 0x9F))
  else if b < 0xF0 then some (.inr (.pending (b - 0xE0) 2 0x80 0xBF))
  else if b = 0xF0 then some (.inr (.pending 0 3 0x90 0xBF))
  else if b < 0xF4 then some (.inr (.pending (b - 0xF0) 3 0x80 0xBF))
  else if b = 0xF4 then some (.inr (.pending 4 3 0x80 0x8F))
  else none

/-- The item and the state after a byte read between characters. -/
def begin (b : Nat) : List (Option Char) × State :=
  match lead b with
  | none => ([none], .start)
  | some (.inl c) => ([some c], .start)
  | some (.inr s) => ([], s)

/-- The items and the state after one byte. A byte that does not continue
the pending character ends it as an invalid part and is read afresh. -/
def step (s : State) (b : Nat) : List (Option Char) × State :=
  match s with
  | .start => begin b
  | .pending value missing low high =>
    if low ≤ b && b ≤ high then
      let value := value * 64 + (b - 0x80)
      if missing ≤ 1 then ([some (Char.ofNat value)], .start)
      else ([], .pending value (missing - 1) 0x80 0xBF)
    else
      let (items, s) := begin b
      (none :: items, s)

/-- The items of a byte sequence; bytes missing at the end are an invalid
part too. -/
def scan : State → Bytes → List (Option Char)
  | .start, [] => []
  | .pending .., [] => [none]
  | s, b :: bs =>
    let (items, s) := step s b.toNat
    items ++ scan s bs

/-- The text that the bytes encode, if all of them do. -/
def decode? (bytes : Bytes) : Option String :=
  ((scan .start bytes).mapM id).map String.ofList

/-- The text with one replacement character for each invalid part. -/
def decodeLossy (bytes : Bytes) : String :=
  String.ofList ((scan .start bytes).map fun c => c.getD '\ufffd')

/-- The bytes of a text. -/
def encode (text : String) : Bytes :=
  text.toUTF8.toList

end Utf8

end JudgeQueue
