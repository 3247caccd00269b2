import JudgeQueue.Json.Lexeme
/-!
# JSON texts as drafts

A draft is what a text shows of its value up to the first fault, with the
fault marked where it stands. Since a draft is gone through in the order of
the text, the first thing wrong with the text decides how it is refused: a
fault in its grammar, or a value of the wrong shape.

Containers may be nested 127 deep. What is nested deeper cannot be kept, but
it may be passed over.
-/

namespace JudgeQueue

namespace Json

/-- A value as far as its text is well formed. An object keeps every member,
also those of one name; a name may lack a value as a string does. -/
inductive Draft
  | null
  | bool (value : Bool)
  | number (value : Option Number)
  | text (value : Option String)
  | array (items : List Draft)
  | object (members : List (Option String × Draft))
  /-- A container nested too deep, and whether it is well formed. -/
  | tooDeep (whole : Bool)
  | broken
deriving Inhabited

/-- A text: its value, and whether more than blanks follows it. -/
structure Document where
  root : Draft
  trailing : Bool := false

/-! ## Building -/

/-- A container whose end has not been read, latest part first. An object
may hold a name that waits for its value. -/
inductive Frame
  | array (items : List Draft)
  | object (members : List (Option String × Draft)) (name : Option (Option String))

/-- What may stand next in a text. -/
inductive Expect
  | value | itemOrEnd | name | nameOrEnd | colon | commaOrEnd

/-- A text read so far: the open containers, or its value. -/
inductive Builder
  | reading (stack : List Frame) (expect : Expect)
  | complete (document : Document)

namespace Builder

/-- Closes every open container around a draft. -/
def collapse : Draft → List Frame → Draft
  | d, [] => d
  | d, .array items :: stack => collapse (.array (d :: items).reverse) stack
  | d, .object members name :: stack =>
    collapse (.object ((name.getD none, d) :: members).reverse) stack

/-- Gives up at a fault. -/
def fault (stack : List Frame) : Builder :=
  .complete ⟨collapse .broken stack, true⟩

/-- Hands a value to the container it stands in. -/
def supply (d : Draft) : List Frame → Builder
  | [] => .complete ⟨d, false⟩
  | .array items :: stack => .reading (.array (d :: items) :: stack) .commaOrEnd
  | .object members name :: stack =>
    .reading (.object ((name.getD none, d) :: members) none :: stack) .commaOrEnd

/-- Reads the first lexeme of a value. -/
def value (stack : List Frame) : Lexeme → Builder
  | .null => supply .null stack
  | .bool b => supply (.bool b) stack
  | .number n => supply (.number n) stack
  | .text s => supply (.text s) stack
  | .mark '[' => .reading (.array [] :: stack) .itemOrEnd
  | .mark '\x7b' => .reading (.object [] none :: stack) .nameOrEnd
  | _ => fault stack

/-- Reads the name of a member. -/
def name (stack : List Frame) : Lexeme → Builder
  | .text s =>
    match stack with
    | .object members _ :: rest => .reading (.object members (some s) :: rest) .colon
    | _ => fault stack
  | _ => fault stack

/-- Reads one lexeme. -/
def step (b : Builder) (l : Lexeme) : Builder :=
  match b with
  | .complete document => .complete { document with trailing := true }
  | .reading stack expect =>
    match expect, l, stack with
    | .itemOrEnd, .mark ']', .array items :: rest => supply (.array items.reverse) rest
    | .commaOrEnd, .mark ']', .array items :: rest => supply (.array items.reverse) rest
    | .nameOrEnd, .mark '\x7d', .object members _ :: rest => supply (.object members.reverse) rest
    | .commaOrEnd, .mark '\x7d', .object members _ :: rest => supply (.object members.reverse) rest
    | .commaOrEnd, .mark ',', .array items :: rest => .reading (.array items :: rest) .value
    | .commaOrEnd, .mark ',', .object members n :: rest =>
      .reading (.object members n :: rest) .name
    | .colon, .mark ':', _ => .reading stack .value
    | .value, _, _ => value stack l
    | .itemOrEnd, _, _ => value stack l
    | .name, _, _ => name stack l
    | .nameOrEnd, _, _ => name stack l
    | _, _, _ => fault stack

/-- The text that ends here. -/
def finish : Builder → Document
  | .complete document => document
  | .reading stack _ => ⟨collapse .broken stack, false⟩

end Builder

/-! ## Passing over and keeping -/

mutual

/-- Whether the text of a draft is well formed to its end. -/
def Draft.isWhole : Draft → Bool
  | .array items => Draft.areWhole items
  | .object members => Draft.membersAreWhole members
  | .tooDeep whole => whole
  | .broken => false
  | _ => true

/-- Whether all items are well formed. -/
def Draft.areWhole : List Draft → Bool
  | [] => true
  | d :: rest => d.isWhole && Draft.areWhole rest

/-- Whether all members are well formed. -/
def Draft.membersAreWhole : List (Option String × Draft) → Bool
  | [] => true
  | (_, d) :: rest => d.isWhole && Draft.membersAreWhole rest

end

mutual

/-- Whether everything in a draft has a value, so that it can be kept. -/
def Draft.isKept : Draft → Bool
  | .null | .bool _ | .number (some _) | .text (some _) => true
  | .number none | .text none | .tooDeep _ | .broken => false
  | .array items => Draft.areKept items
  | .object members => Draft.membersAreKept members

/-- Whether all items can be kept. -/
def Draft.areKept : List Draft → Bool
  | [] => true
  | d :: rest => d.isKept && Draft.areKept rest

/-- Whether all members can be kept, with their names. -/
def Draft.membersAreKept : List (Option String × Draft) → Bool
  | [] => true
  | (name, d) :: rest => name.isSome && d.isKept && Draft.membersAreKept rest

end

mutual

/-- A draft in which containers are nested at most `limit` deep. -/
def Draft.bounded (limit : Nat) : Draft → Draft
  | .array items =>
    if limit = 0 then .tooDeep (Draft.areWhole items)
    else .array (Draft.boundedItems (limit - 1) items)
  | .object members =>
    if limit = 0 then .tooDeep (Draft.membersAreWhole members)
    else .object (Draft.boundedMembers (limit - 1) members)
  | d => d

/-- Items in which containers are nested at most `limit` deep. -/
def Draft.boundedItems (limit : Nat) : List Draft → List Draft
  | [] => []
  | d :: rest => d.bounded limit :: Draft.boundedItems limit rest

/-- Members in which containers are nested at most `limit` deep. -/
def Draft.boundedMembers (limit : Nat) :
    List (Option String × Draft) → List (Option String × Draft)
  | [] => []
  | (name, d) :: rest => (name, d.bounded limit) :: Draft.boundedMembers limit rest

end

/-- How deep containers may be nested. -/
def nestingLimit : Nat := 127

/-- Reads a text as far as it is well formed. -/
def Document.ofText (text : String) : Document :=
  let document := ((lexemes text).foldl Builder.step (.reading [] .value)).finish
  { document with root := document.root.bounded nestingLimit }

/-! ## Refusing -/

/-- How a text fails to be a value of a type. -/
inductive Refusal
  /-- The text is not well formed. -/
  | malformed
  /-- The text is well formed so far, but of another shape. -/
  | mismatch
deriving DecidableEq, Repr

/-- How a draft of the wrong kind is refused. A number or a string is read
to its end first, a container is not. -/
def Draft.wrongKind : Draft → Refusal
  | .broken | .number none | .text none => .malformed
  | _ => .mismatch

end Json

end JudgeQueue
