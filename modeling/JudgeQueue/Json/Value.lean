/-!
# JSON values

A number is a whole number or a binary64 number; which of the two it is
never depends on its size alone, since a value keeps the form it was
written in. An object lists its members in order, one for each name.
-/

namespace JudgeQueue

/-- A JSON value. -/
inductive Json
  | null
  | bool (value : Bool)
  | int (value : Int)
  | float (value : Float)
  | text (value : String)
  | array (items : List Json)
  | object (members : List (String × Json))
deriving Inhabited

namespace Json

/-- The value, or `null` where there is none. -/
def ofOption {α : Type} (f : α → Json) : Option α → Json
  | none => .null
  | some a => f a

/-- The member of a name, if the value is an object that has it. -/
def member? (name : String) : Json → Option Json
  | .object members => (members.find? fun m => m.1 = name).map (·.2)
  | _ => none

mutual

/-- The value as it is written. No text stands for a number that is not
finite, so `null` is written for it. -/
def written : Json → Json
  | .float x => if x.isFinite then .float x else .null
  | .array items => .array (writtenItems items)
  | .object members => .object (writtenMembers members)
  | v => v

/-- Items as they are written. -/
def writtenItems : List Json → List Json
  | [] => []
  | v :: rest => v.written :: writtenItems rest

/-- Members as they are written. -/
def writtenMembers : List (String × Json) → List (String × Json)
  | [] => []
  | (name, v) :: rest => (name, v.written) :: writtenMembers rest

end

end Json

/-- Values that have a JSON form. -/
class ToJson (α : Type) where
  toJson : α → Json

export ToJson (toJson)

instance : ToJson Json := ⟨id⟩

instance : ToJson Bool := ⟨Json.bool⟩

instance : ToJson Int := ⟨Json.int⟩

instance : ToJson Nat := ⟨fun n => Json.int n⟩

instance : ToJson Float := ⟨Json.float⟩

instance : ToJson String := ⟨Json.text⟩

instance : ToJson Unit := ⟨fun _ => Json.null⟩

instance {α : Type} [ToJson α] : ToJson (Option α) := ⟨Json.ofOption toJson⟩

instance {α : Type} [ToJson α] : ToJson (List α) := ⟨fun as => Json.array (as.map toJson)⟩

end JudgeQueue
