import JudgeQueue.Text.Numeral
import JudgeQueue.Text.Split
/-!
# Media types

The grammar of a content type, and whether it announces JSON: the subtype or
the suffix after its last plus sign says so. Case does not matter, and
parameters do not matter as long as they are well formed. Between quotes a
backslash is a character like any other.
-/

namespace JudgeQueue

namespace MediaType

/-- Whether a character may stand in a token. -/
def isTokenChar (c : Char) : Bool :=
  ('a' ≤ c && c ≤ 'z') || ('A' ≤ c && c ≤ 'Z') || Numeral.isDigit c ||
    "!#$%&*+-.^_|~".toList.contains c || c = '\'' || c = '\x60'

/-- Whether a character may stand in a quoted value. -/
def isQuotedChar (c : Char) : Bool :=
  ' ' ≤ c && c ≤ '~'

/-- Where the reading of parameters stands. -/
inductive Phase
  /-- Before a parameter, or at the end of the list. -/
  | between
  /-- Within a name. -/
  | name
  /-- Before a value. -/
  | valueStart
  /-- Within a value. -/
  | value
  /-- After the opening quote. -/
  | quoteStart
  /-- Within quotes. -/
  | quoted
  /-- After the closing quote. -/
  | quoteEnd

/-- Reads one character of the parameters. -/
def step (p : Phase) (c : Char) : Option Phase :=
  match p with
  | .between => if c = ' ' then some .between else if isTokenChar c then some .name else none
  | .name => if c = '=' then some .valueStart else if isTokenChar c then some .name else none
  | .valueStart => if c = '"' then some .quoteStart else if isTokenChar c then some .value else none
  | .value => if c = ';' then some .between else if isTokenChar c then some .value else none
  | .quoteStart => if isQuotedChar c then some .quoted else none
  | .quoted => if c = '"' then some .quoteEnd else if isQuotedChar c then some .quoted else none
  | .quoteEnd => if c = ';' then some .between else if c = ' ' then some .quoteEnd else none

/-- Whether the parameters may end here. -/
def mayEnd : Phase → Bool
  | .between | .valueStart | .value | .quoteEnd => true
  | .name | .quoteStart | .quoted => false

/-- Whether a list of parameters is well formed. -/
def areParameters (cs : List Char) : Bool :=
  (cs.foldlM step .between).any mayEnd

/-- A subtype without the suffix that follows its last plus sign, and that
suffix. -/
def splitSuffix (subtype : List Char) : List Char × Option (List Char) :=
  let parts := Split.parts '+' subtype
  let stem := ['+'].intercalate parts.dropLast
  if stem.isEmpty then (subtype, none) else (stem, parts.getLast?)

/-- Whether a content type announces JSON. -/
def isJson (contentType : String) : Bool :=
  let (essence, parameters) := Split.atFirst ';' (contentType.toList.map Char.toLower)
  let (type, subtype) := Split.atFirst '/' essence
  let subtype := subtype.getD []
  let (stem, suffix) := splitSuffix subtype
  type = "application".toList && subtype.all isTokenChar && parameters.all areParameters &&
    (stem = "json".toList || suffix = some "json".toList)

end MediaType

end JudgeQueue
