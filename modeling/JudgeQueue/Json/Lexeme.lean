import JudgeQueue.Json.Value
import JudgeQueue.Text.Bytes
import JudgeQueue.Text.Decimal
import JudgeQueue.Text.Numeral
/-!
# The lexemes of a JSON text

The text is scanned once, character by character. The scan stops at the
first character that no lexeme admits, and leaves a `junk` lexeme there. A
string whose escapes name half of a surrogate pair, and a number beyond
every finite one, are lexemes without a value: they may be passed over but
not kept.
-/

namespace JudgeQueue

namespace Json

/-- A number as it is kept. -/
inductive Number
  | int (value : Int)
  | float (value : Float)

/-- The smallest parts of a JSON text. -/
inductive Lexeme
  | mark (c : Char)
  | null
  | bool (value : Bool)
  | number (value : Option Number)
  | text (value : Option String)
  | junk

/-! ## Numbers -/

/-- How far the reading of a number has come. -/
inductive Phase
  | sign | zero | whole | point | fraction | power | powerSign | powerDigits

/-- A number read so far. -/
structure Numeric where
  negative : Bool
  phase : Phase
  mantissa : Nat := 0
  places : Nat := 0
  powerNegative : Bool := false
  power : Nat := 0

namespace Numeric

/-- The number after one more character, if a number goes on with it. -/
def push (n : Numeric) (c : Char) : Option Numeric :=
  let d := Numeral.digitValue c
  let digit := Numeral.isDigit c
  match n.phase with
  | .sign =>
    if c = '0' then some { n with phase := .zero }
    else if digit then some { n with phase := .whole, mantissa := d } else none
  | .zero =>
    if c = '.' then some { n with phase := .point }
    else if c = 'e' || c = 'E' then some { n with phase := .power } else none
  | .whole =>
    if digit then some { n with mantissa := 10 * n.mantissa + d }
    else if c = '.' then some { n with phase := .point }
    else if c = 'e' || c = 'E' then some { n with phase := .power } else none
  | .point =>
    if digit then
      some { n with phase := .fraction, mantissa := 10 * n.mantissa + d, places := 1 }
    else none
  | .fraction =>
    if digit then some { n with mantissa := 10 * n.mantissa + d, places := n.places + 1 }
    else if c = 'e' || c = 'E' then some { n with phase := .power } else none
  | .power =>
    if digit then some { n with phase := .powerDigits, power := d }
    else if c = '-' then some { n with phase := .powerSign, powerNegative := true }
    else if c = '+' then some { n with phase := .powerSign } else none
  | .powerSign => if digit then some { n with phase := .powerDigits, power := d } else none
  | .powerDigits => if digit then some { n with power := 10 * n.power + d } else none

/-- Whether the number may end here. A zero may not be followed by a digit,
so the caller also looks at the next character. -/
def mayEnd (n : Numeric) : Bool :=
  match n.phase with
  | .zero | .whole | .fraction | .powerDigits => true
  | _ => false

/-- The decimal that was read. -/
def decimal (n : Numeric) : Decimal :=
  let power : Int := if n.powerNegative then -(n.power : Int) else n.power
  ⟨n.negative, n.mantissa, power - n.places⟩

/-- The number that was read. Without a fraction and a power it is a whole
number if 64 bits hold it; minus zero is not one. -/
def value? (n : Numeric) : Option Number :=
  match n.phase with
  | .zero | .whole =>
    let m := n.mantissa
    if n.negative && 0 < m && isInt64 (-(m : Int)) then some (.int (-(m : Int)))
    else if !n.negative && m ≤ maxNat64 then some (.int m)
    else n.decimal.toFloat?.map .float
  | _ => n.decimal.toFloat?.map .float

end Numeric

/-! ## Strings -/

/-- What a string expects next: a plain character, the letter of an escape,
or hexadecimal digits. -/
inductive Escape
  | none
  | letter
  | hex (count : Nat) (value : Nat)

/-- A string read so far, latest character first. `high` is the first half
of a surrogate pair that waits for the second. -/
structure Quoted where
  chars : List Char := []
  sound : Bool := true
  high : Option Nat := .none
  escape : Escape := .none

namespace Quoted

/-- The string with a character added; a waiting half is not completed. -/
def push (q : Quoted) (c : Char) : Quoted :=
  { q with chars := c :: q.chars, sound := q.sound && q.high.isNone, high := none, escape := .none }

/-- The string with the code of a hexadecimal escape added. -/
def pushCode (q : Quoted) (n : Nat) : Quoted :=
  if 0xD800 ≤ n && n < 0xDC00 then
    { q with sound := q.sound && q.high.isNone, high := some n, escape := .none }
  else if 0xDC00 ≤ n && n < 0xE000 then
    match q.high with
    | some high =>
      { q with
        chars := Char.ofNat (0x10000 + (high - 0xD800) * 0x400 + (n - 0xDC00)) :: q.chars
        high := none
        escape := .none }
    | none => { q with sound := false, escape := .none }
  else q.push (Char.ofNat n)

/-- The character that a one-letter escape stands for. -/
def unescape? : Char → Option Char
  | '"' => some '"'
  | '\\' => some '\\'
  | '/' => some '/'
  | 'b' => some '\x08'
  | 'f' => some '\x0c'
  | 'n' => some '\n'
  | 'r' => some '\r'
  | 't' => some '\t'
  | _ => none

/-- The text of a string that ends here. -/
def value? (q : Quoted) : Option String :=
  if q.sound && q.high.isNone then some (String.ofList q.chars.reverse) else none

/-- The string after one character inside an escape. -/
def stepEscape (q : Quoted) (c : Char) : Option Quoted :=
  match q.escape with
  | .none => none
  | .letter =>
    if c = 'u' then some { q with escape := .hex 4 0 }
    else (unescape? c).map q.push
  | .hex count value =>
    (Hex.value? c).map fun d =>
      let value := value * 16 + d
      if count ≤ 1 then q.pushCode value else { q with escape := .hex (count - 1) value }

end Quoted

/-! ## The scan -/

/-- Where the scan stands: between lexemes, inside one, or stopped. -/
inductive Scan
  | blank
  | word (rest : List Char) (lexeme : Lexeme)
  | number (n : Numeric)
  | text (q : Quoted)
  | stopped

/-- The lexemes so far, latest first, and where the scan stands. -/
structure Scanner where
  lexemes : List Lexeme := []
  scan : Scan := .blank

namespace Scanner

/-- Adds a lexeme. -/
def emit (s : Scanner) (l : Lexeme) : Scanner :=
  ⟨l :: s.lexemes, .blank⟩

/-- Stops at a character that no lexeme admits. -/
def stop (s : Scanner) : Scanner :=
  ⟨.junk :: s.lexemes, .stopped⟩

/-- Reads a character between lexemes. -/
def begin (s : Scanner) (c : Char) : Scanner :=
  if c = ' ' || c = '\t' || c = '\n' || c = '\r' then { s with scan := .blank }
  else if c = '\x7b' || c = '\x7d' || c = '[' || c = ']' || c = ':' || c = ',' then s.emit (.mark c)
  else if c = '"' then { s with scan := .text {} }
  else if c = '-' then { s with scan := .number ⟨true, .sign, 0, 0, false, 0⟩ }
  else if c = '0' then { s with scan := .number ⟨false, .zero, 0, 0, false, 0⟩ }
  else if Numeral.isDigit c then
    { s with scan := .number ⟨false, .whole, Numeral.digitValue c, 0, false, 0⟩ }
  else if c = 'n' then { s with scan := .word ['u', 'l', 'l'] .null }
  else if c = 't' then { s with scan := .word ['r', 'u', 'e'] (.bool true) }
  else if c = 'f' then { s with scan := .word ['a', 'l', 's', 'e'] (.bool false) }
  else s.stop

/-- Reads one character. -/
def step (s : Scanner) (c : Char) : Scanner :=
  match s.scan with
  | .stopped => s
  | .blank => s.begin c
  | .word [] l => (s.emit l).begin c
  | .word [d] l => if c = d then s.emit l else s.stop
  | .word (d :: rest) l => if c = d then { s with scan := .word rest l } else s.stop
  | .number n =>
    match n.push c with
    | some n => { s with scan := .number n }
    | none =>
      let digitAfterZero := match n.phase with
        | .zero => Numeral.isDigit c
        | _ => false
      if n.mayEnd && !digitAfterZero then (s.emit (.number n.value?)).begin c else s.stop
  | .text q =>
    match q.escape with
    | .none =>
      if c = '"' then s.emit (.text q.value?)
      else if c = '\\' then { s with scan := .text { q with escape := .letter } }
      else if c.toNat < 0x20 then s.stop
      else { s with scan := .text (q.push c) }
    | _ =>
      match q.stepEscape c with
      | some q => { s with scan := .text q }
      | none => s.stop

/-- The lexemes of a text that ends here. -/
def finish (s : Scanner) : List Lexeme :=
  match s.scan with
  | .blank | .stopped => s.lexemes.reverse
  | .number n =>
    ((if n.mayEnd then Lexeme.number n.value? else .junk) :: s.lexemes).reverse
  | .word .. | .text _ => (.junk :: s.lexemes).reverse

end Scanner

/-- The lexemes of a text, up to the first fault. -/
def lexemes (text : String) : List Lexeme :=
  (text.toList.foldl Scanner.step {}).finish

end Json

end JudgeQueue
