import JudgeQueue.Json.Freeform
/-!
# Reading typed values

A reader takes a draft to a value of some type, or says how the draft fails.
A fault in the grammar and a value of the wrong shape are told apart,
because a service answers them differently, and the one that comes first in
the text wins.

A record is described by a `Form`: its fields in order, each with a name, a
reader and a rule for its absence. The one description reads an object, in
which fields come in any order and members of other names are passed over,
and an array that lists the fields by position.
-/

namespace JudgeQueue

namespace Json

/-- A way to read values of a type. -/
abbrev Reader (α : Type) := Draft → Except Refusal α

namespace Reader

/-- A truth value. -/
def bool : Reader Bool
  | .bool b => .ok b
  | d => .error d.wrongKind

/-- A string. -/
def text : Reader String
  | .text (some s) => .ok s
  | d => .error d.wrongKind

/-- A whole number between two bounds. -/
def intBetween (low high : Int) : Reader Int
  | .number (some (.int i)) => if low ≤ i ∧ i ≤ high then .ok i else .error .mismatch
  | d => .error d.wrongKind

/-- A signed number of 64 bits. -/
def int64 : Reader Int := intBetween minInt64 maxInt64

/-- A signed number of 32 bits. -/
def int32 : Reader Int := intBetween (-2147483648) 2147483647

/-- An unsigned number of 64 bits. -/
def nat64 : Reader Nat := fun d => (intBetween 0 maxNat64 d).map Int.toNat

/-- A binary64 number; a whole number is rounded to one. -/
def float : Reader Float
  | .number (some (.int i)) => .ok (Float.ofInt i)
  | .number (some (.float x)) => .ok x
  | d => .error d.wrongKind

/-- A value, or `null` for none. -/
def option {α : Type} (r : Reader α) : Reader (Option α)
  | .null => .ok none
  | d => (r d).map some

/-- A list of values. -/
def list {α : Type} (r : Reader α) : Reader (List α)
  | .array items => items.mapM r
  | d => .error d.wrongKind

/-- A string that a function understands. -/
def parsed {α : Type} (f : String → Option α) : Reader α := fun d => do
  match f (← text d) with
  | some a => .ok a
  | none => .error .mismatch

/-- Any value, kept as it is. -/
def any : Reader Json := Draft.value

/-- One of some names. A name may also stand as the only member of an object
whose value is `null`; anything but a string or an object is refused as if
no value stood there. -/
def oneOf {α : Type} (f : String → Option α) : Reader α
  | .text s => parsed f (.text s)
  | .object ((some name, d) :: rest) => do
    let a ← parsed f (.text (some name))
    match d with
    | .null => if rest.isEmpty then .ok a else .error .malformed
    | d => .error d.wrongKind
  | _ => .error .malformed

/-- One of some names in a value that was kept before it is read. There an
empty object passes for `null`. -/
def oneOfKept {α : Type} (f : String → Option α) : Reader α
  | .object [(name, .object [])] => oneOf f (.object [(name, .null)])
  | d => oneOf f d

/-- Reads a document in full. -/
def document {α : Type} (r : Reader α) (d : Document) : Except Refusal α := do
  let a ← r d.root
  if d.trailing then .error .malformed else .ok a

/-- Reads a value. -/
def value? {α : Type} (r : Reader α) (v : Json) : Option α :=
  (r v.toDraft).toOption

end Reader

/-! ## Records -/

/-- The fields of a record: their names with a check each, and how the
record is put together from an object's members or an array's items. -/
structure Form (α : Type) where
  checks : List (String × (Draft → Except Refusal Unit))
  ofMembers : List (String × Draft) → Except Refusal α
  ofItems : List Draft → Except Refusal (α × List Draft)

namespace Form

/-- A record without fields. -/
protected def pure {α : Type} (a : α) : Form α :=
  ⟨[], fun _ => .ok a, fun items => .ok (a, items)⟩

/-- The fields of two forms in a row. -/
protected def seq {α β : Type} (f : Form (α → β)) (g : Unit → Form α) : Form β where
  checks := f.checks ++ (g ()).checks
  ofMembers := fun members => do
    let h ← f.ofMembers members
    let a ← (g ()).ofMembers members
    .ok (h a)
  ofItems := fun items => do
    let (h, items) ← f.ofItems items
    let (a, items) ← (g ()).ofItems items
    .ok (h a, items)

instance : Applicative Form where
  pure := Form.pure
  seq := Form.seq

/-- The member of a name. -/
def find (name : String) (members : List (String × Draft)) : Option Draft :=
  (members.find? fun m => m.1 = name).map (·.2)

/-- A field, with what stands for it where an object lacks it and where an
array is too short for it. -/
def field {α : Type} (name : String) (r : Reader α) (absent short : Except Refusal α) : Form α where
  checks := [(name, fun d => (r d).map fun _ => ())]
  ofMembers := fun members =>
    match find name members with
    | some d => r d
    | none => absent
  ofItems := fun
    | [] => short.map fun a => (a, [])
    | d :: items => (r d).map fun a => (a, items)

/-- A field that must be there. -/
def required {α : Type} (name : String) (r : Reader α) : Form α :=
  field name r (.error .mismatch) (.error .mismatch)

/-- A field that an object may lack; an array has `null` for it. -/
def optional {α : Type} (name : String) (r : Reader α) : Form (Option α) :=
  field name (.option r) (.ok none) (.error .mismatch)

/-- A field with a value for its absence. -/
def defaulted {α : Type} (name : String) (r : Reader α) (value : α) : Form α :=
  field name r (.ok value) (.ok value)

/-- Goes through the members of an object in the order of the text: each
field may come once and has to be readable, other members have to be well
formed. Returns the fields. -/
def scan (checks : List (String × (Draft → Except Refusal Unit))) :
    List String → List (Option String × Draft) → Except Refusal (List (String × Draft))
  | _, [] => .ok []
  | _, (none, _) :: _ => .error .malformed
  | seen, (some name, d) :: rest =>
    match checks.find? fun c => c.1 = name with
    | some (_, check) => do
      if seen.contains name then .error .mismatch
      check d
      let fields ← scan checks (name :: seen) rest
      .ok ((name, d) :: fields)
    | none => if d.isWhole then scan checks seen rest else .error .malformed

/-- Reads a record. An array with more items than fields is refused as if
the text went on after its end. -/
def read {α : Type} (f : Form α) : Reader α
  | .object members => do f.ofMembers (← scan f.checks [] members)
  | .array items => do
    let (a, rest) ← f.ofItems items
    if rest.isEmpty then .ok a else .error .malformed
  | d => .error d.wrongKind

/-- Goes through the members of an object like `scan`, and keeps the members
that are no fields. -/
def divide (checks : List (String × (Draft → Except Refusal Unit))) :
    List String → List (Option String × Draft) →
      Except Refusal (List (String × Draft) × List (Option String × Draft))
  | _, [] => .ok ([], [])
  | _, (none, _) :: _ => .error .malformed
  | seen, (some name, d) :: rest =>
    match checks.find? fun c => c.1 = name with
    | some (_, check) => do
      if seen.contains name then .error .mismatch
      check d
      let (fields, kept) ← divide checks (name :: seen) rest
      .ok ((name, d) :: fields, kept)
    | none =>
      if d.isKept then do
        let (fields, kept) ← divide checks seen rest
        .ok (fields, (some name, d) :: kept)
      else .error .malformed

/-- Reads two records whose members share one object. The second is read
from what the first leaves, after the end of the object. -/
def readBeside {α β : Type} (f : Form α) (g : Form β) : Reader (α × β)
  | .object members => do
    let (fields, kept) ← divide f.checks [] members
    let a ← f.ofMembers fields
    match g.read (.object kept) with
    | .ok b => .ok (a, b)
    | .error _ => .error .mismatch
  | d => .error d.wrongKind

end Form

/-! ## Tagged records -/

/-- One of several records, told apart by the string in a field. The tag is
the first item where the record is written as an array. -/
def Reader.tagged {α : Type} (tag : String) (variant : String → Option (Form α)) : Reader α
  | .object members => do
    let named ← members.mapM fun (name, d) =>
      match name, d.isKept with
      | some name, true => Except.ok (name, d)
      | _, _ => .error Refusal.malformed
    match named.filter fun m => m.1 = tag with
    | [(_, d)] =>
      match variant (← Reader.text d) with
      | some form =>
        form.read (.object ((named.filter fun m => m.1 ≠ tag).map fun (name, d) => (some name, d)))
      | none => .error .mismatch
    | _ => .error .mismatch
  | .array (d :: items) => do
    match variant (← Reader.text d) with
    | some form => form.read (.array items)
    | none => .error .mismatch
  | d => .error d.wrongKind

end Json

end JudgeQueue
