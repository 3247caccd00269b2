import JudgeQueue.Json.Draft
/-!
# Free-form values

A draft as a value, kept as it is. An object may embed a value instead of
having members: its only member has a reserved name, and the string there
writes the value. An embedded text is a text of its own, so its nesting is
counted afresh and it may embed values in turn. A value also goes back to
the draft of a text that writes it.
-/

namespace JudgeQueue

namespace Json

/-- Adds a member in front, unless a later one has its name: the last member
of a name is the one that counts. -/
def consMember (name : String) (value : Json) (members : List (String × Json)) :
    List (String × Json) :=
  if members.any fun m => m.1 = name then members else (name, value) :: members

/-- The name that is reserved for embedding: an object whose first member
has it stands for the value that the member's string writes. -/
def embeddingName : String := "$serde_json::private::RawValue"

/-- The first member of an object that embeds a value, and whether the
object has no other. -/
def embedded? : List (Option String × Draft) → Option (Draft × Bool)
  | (some name, d) :: rest => if name = embeddingName then some (d, rest.isEmpty) else none
  | _ => none

/-- The value that a string embeds, given how embedded texts are read. The
text is read before the object is seen to end. -/
def unembed (textValue? : String → Option Json) (alone : Bool) : Draft → Except Refusal Json
  | .text (some s) =>
    match textValue? s with
    | some v => if alone then .ok v else .error .malformed
    | none => .error .mismatch
  | d => .error d.wrongKind

mutual

/-- The value of a draft, given how embedded texts are read. -/
def Draft.valueBy (textValue? : String → Option Json) : Draft → Except Refusal Json
  | .null => .ok .null
  | .bool b => .ok (.bool b)
  | .number (some (.int i)) => .ok (.int i)
  | .number (some (.float x)) => .ok (.float x)
  | .text (some s) => .ok (.text s)
  | .array items => (Draft.valuesBy textValue? items).map Json.array
  | .object members =>
    match embedded? members with
    | some (d, alone) => unembed textValue? alone d
    | none => (Draft.membersBy textValue? members).map Json.object
  | .number none | .text none | .tooDeep _ | .broken => .error .malformed

/-- The values of the items of an array. -/
def Draft.valuesBy (textValue? : String → Option Json) : List Draft → Except Refusal (List Json)
  | [] => .ok []
  | d :: rest => do
    let v ← Draft.valueBy textValue? d
    let vs ← Draft.valuesBy textValue? rest
    .ok (v :: vs)

/-- The members of an object. -/
def Draft.membersBy (textValue? : String → Option Json) :
    List (Option String × Draft) → Except Refusal (List (String × Json))
  | [] => .ok []
  | (none, _) :: _ => .error .malformed
  | (some name, d) :: rest => do
    let v ← Draft.valueBy textValue? d
    let vs ← Draft.membersBy textValue? rest
    .ok (consMember name v vs)

end

/-- The value that a text writes, if the text is well formed and embeds
values less than `depth` deep. -/
def valueWithin? : Nat → String → Option Json
  | 0, _ => none
  | depth + 1, s =>
    let document := Document.ofText s
    if document.trailing then none
    else (document.root.valueBy (valueWithin? depth)).toOption

/-- The value that a text writes, if the text is well formed. An embedded
text is shorter than the text around it, so the length bounds the depth. -/
def ofText? (text : String) : Option Json :=
  valueWithin? (text.length + 1) text

/-- The value of a draft. -/
def Draft.value (d : Draft) : Except Refusal Json :=
  d.valueBy ofText?

/-! ## Back to drafts -/

mutual

/-- A value as a draft. -/
def toDraft : Json → Draft
  | .null => .null
  | .bool b => .bool b
  | .int i => .number (some (.int i))
  | .float x => .number (some (.float x))
  | .text s => .text (some s)
  | .array items => .array (toDrafts items)
  | .object members => .object (toDraftMembers members)

/-- The items of an array as drafts. -/
def toDrafts : List Json → List Draft
  | [] => []
  | v :: rest => toDraft v :: toDrafts rest

/-- The members of an object as drafts. -/
def toDraftMembers : List (String × Json) → List (Option String × Draft)
  | [] => []
  | (name, v) :: rest => (some name, toDraft v) :: toDraftMembers rest

end

/-- The text that writes a value. -/
def toDocument (v : Json) : Document :=
  ⟨toDraft v, false⟩

end Json

end JudgeQueue
