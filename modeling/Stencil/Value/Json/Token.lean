import Stencil.Value.Basic
import Stencil.Double.Reader

/-!
# Tokens of JSON text

JSON text is read in two passes. Here it is cut into tokens: the six marks, strings with their
escapes decoded, numbers and the three words. A number without fraction and exponent is an integer
if it lies in `-2^63 … 2^64 - 1`, and a double otherwise.
-/

namespace Stencil.Json

/-- A token of JSON text. -/
inductive Token where
  | openList
  | closeList
  | openDict
  | closeDict
  | colon
  | comma
  | str (s : String)
  /-- A number or one of the words. -/
  | scalar (v : Value)

/-- The blanks that may stand between tokens. -/
def isBlank (c : Char) : Bool := c == ' ' || c == '\n' || c == '\t' || c == '\r'

/-! ## Strings -/

/-- The value of a hexadecimal digit. -/
def hexValue? (c : Char) : Option Nat :=
  if c.isDigit then some (c.toNat - 48)
  else if 'a' ≤ c ∧ c ≤ 'f' then some (c.toNat - 87)
  else if 'A' ≤ c ∧ c ≤ 'F' then some (c.toNat - 55)
  else none

/-- The value of four hexadecimal digits. -/
def hexUnit? (a b c d : Char) : Option Nat :=
  match hexValue? a, hexValue? b, hexValue? c, hexValue? d with
  | some a, some b, some c, some d => some (((a * 16 + b) * 16 + c) * 16 + d)
  | _, _, _, _ => none

/-- The character of an escape with one letter. -/
def escapedChar? : Char → Option Char
  | '"' => some '"'
  | '\\' => some '\\'
  | '/' => some '/'
  | 'b' => some '\x08'
  | 'f' => some '\x0c'
  | 'n' => some '\n'
  | 'r' => some '\r'
  | 't' => some '\t'
  | _ => none

/-- The character of one 16-bit unit that is not half of a pair. -/
def singleUnit? (unit : Nat) : Option Char :=
  if 0xD800 ≤ unit ∧ unit < 0xE000 then none else some (Char.ofNat unit)

/-- The character of a pair of 16-bit units. -/
def unitPair? (high low : Nat) : Option Char :=
  if 0xD800 ≤ high ∧ high < 0xDC00 ∧ 0xDC00 ≤ low ∧ low < 0xE000 then
    some (Char.ofNat (0x10000 + (high - 0xD800) * 1024 + (low - 0xDC00)))
  else none

/-- Reads the inside of a string up to its closing quote, and gives what follows it. Characters
below space and halves of pairs are refused. -/
def readString : List Char → Option (List Char × List Char)
  | [] => none
  | '"' :: cs => some ([], cs)
  | '\\' :: 'u' :: a :: b :: c :: d :: cs =>
    match (hexUnit? a b c d).bind singleUnit? with
    | some x => (readString cs).map fun (s, rest) => (x :: s, rest)
    | none =>
      match cs with
      | '\\' :: 'u' :: e :: f :: g :: h :: cs' =>
        match hexUnit? a b c d, hexUnit? e f g h with
        | some high, some low =>
          match unitPair? high low with
          | some x => (readString cs').map fun (s, rest) => (x :: s, rest)
          | none => none
        | _, _ => none
      | _ => none
  | '\\' :: c :: cs =>
    match escapedChar? c with
    | some x => (readString cs).map fun (s, rest) => (x :: s, rest)
    | none => none
  | c :: cs =>
    if c = '\\' ∨ c.toNat < 0x20 then none
    else (readString cs).map fun (s, rest) => (c :: s, rest)

/-- What follows a string is shorter than the text from its first character on. -/
theorem length_readString_lt {cs s rest : List Char} (h : readString cs = some (s, rest)) :
    rest.length < cs.length := by
  fun_induction readString cs generalizing s rest <;> simp_all <;> grind

/-! ## Numbers -/

/-- The digits of a number that fit into 64 bits, together with how many were taken. -/
def takeDigits : (significand : Nat) → (taken : Nat) → List Char → Nat × Nat
  | significand, taken, [] => (significand, taken)
  | significand, taken, d :: ds =>
    let next := 10 * significand + (d.toNat - 48)
    if next < Double.wordCount then takeDigits next (taken + 1) ds else (significand, taken)

/-- A power of ten as a double. -/
def powerOfTen (n : Nat) : Float := Double.ofRatio false (Nat.pow 10 n) 1

/-- A significand scaled by a power of ten, in one multiplication or division by a power up to
`10^308`; a smaller number is first divided by that power as often as needed. A number too great
for a double is refused. -/
def scale? (x : Float) (exponent : Int) : Option Float :=
  if Double.isZero x then some x
  else if exponent < -308 then scale? (x / powerOfTen 308) (exponent + 308)
  else if exponent < 0 then some (x / powerOfTen exponent.natAbs)
  else if 308 < exponent then none
  else
    let y := x * powerOfTen exponent.natAbs
    if Double.isFinite y then some y else none
termination_by exponent.natAbs

/-- The double of a number text: as many digits as fit into 64 bits, scaled once. -/
def floatOf? (negative : Bool) (whole fraction : List Char) (exponent : Int) : Option Value :=
  let (high, usedWhole) := takeDigits 0 0 whole
  let (significand, usedFraction) := takeDigits high 0 fraction
  let places : Int := (whole.length - usedWhole : Nat) - (usedFraction : Int)
  (scale? (Double.ofInt significand) (places + exponent)).map fun x =>
    .float (if negative then -x else x)

/-- An integer text: an integer if it is in range and not a negative zero, else a double. -/
def integerOf? (negative : Bool) (whole : List Char) : Option Value :=
  let n := Double.digitsValue whole
  if negative then
    if n ≠ 0 ∧ Double.minInt ≤ -(n : Int) then some (.int (-n)) else floatOf? true whole [] 0
  else if n < Double.wordCount then some (.int n) else floatOf? false whole [] 0

/-- Splits off a minus sign. -/
def splitMinus : List Char → Bool × List Char
  | '-' :: cs => (true, cs)
  | cs => (false, cs)

/-- The number a text spells: digits without a needless zero in front, then possibly a point with
digits after it and an exponent. -/
def readNumber? (cs : List Char) : Option Value :=
  let (negative, body) := splitMinus cs
  let whole := body.takeWhile Char.isDigit
  let afterWhole := body.dropWhile Char.isDigit
  if whole.isEmpty ∨ (whole.head? = some '0' ∧ whole.length ≠ 1) then none
  else match afterWhole with
    | [] => integerOf? negative whole
    | '.' :: tail =>
      let fraction := tail.takeWhile Char.isDigit
      if fraction.isEmpty then none
      else (Double.readExponent? (tail.dropWhile Char.isDigit)).bind
        (floatOf? negative whole fraction)
    | tail => (Double.readExponent? tail).bind (floatOf? negative whole [])

/-! ## Tokens -/

/-- The characters that numbers are made of. -/
def isNumberChar (c : Char) : Bool :=
  c.isDigit || c == '-' || c == '+' || c == '.' || c == 'e' || c == 'E'

/-- The value of a word. -/
def readWord? (cs : List Char) : Option Value :=
  match String.ofList cs with
  | "null" => some .null
  | "true" => some (.bool true)
  | "false" => some (.bool false)
  | _ => none

/-- The token of a mark. -/
def mark? : Char → Option Token
  | '[' => some .openList
  | ']' => some .closeList
  | '\x7b' => some .openDict
  | '\x7d' => some .closeDict
  | ':' => some .colon
  | ',' => some .comma
  | _ => none

/-- The tokens of a text, if it is made of tokens and blanks. -/
def tokens? (cs : List Char) : Option (List Token) :=
  match cs with
  | [] => some []
  | c :: rest =>
    if isBlank c then tokens? rest
    else match mark? c with
      | some token => (tokens? rest).map (token :: ·)
      | none =>
        if c = '"' then
          match _h : readString rest with
          | some (s, after) => (tokens? after).map (.str (String.ofList s) :: ·)
          | none => none
        else if c.isDigit || c == '-' then
          match readNumber? (c :: rest.takeWhile isNumberChar) with
          | some v => (tokens? (rest.dropWhile isNumberChar)).map (.scalar v :: ·)
          | none => none
        else match readWord? (c :: rest.takeWhile Char.isAlpha) with
          | some v => (tokens? (rest.dropWhile Char.isAlpha)).map (.scalar v :: ·)
          | none => none
termination_by cs.length
decreasing_by
  all_goals simp only [List.length_cons]
  · omega
  · omega
  · have := length_readString_lt _h; omega
  · exact Nat.lt_succ_of_le (List.dropWhile_suffix _).length_le
  · exact Nat.lt_succ_of_le (List.dropWhile_suffix _).length_le

end Stencil.Json
