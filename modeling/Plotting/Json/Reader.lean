import Plotting.Decimal.Reader
import Plotting.Json.Document

/-!
# Reading JSON text

The grammar is the strict one: four blanks, no comma after a last item, no
leading zeros, a digit on both sides of a point, no control character in a
string, and nothing after the value.  A text outside the grammar has no
document, wherever the fault stands.

Numerals with a point or an exponent, and those too long for a machine word, are
left to a reader of numerals, which is a parameter.  The one that is used where
none is named is in a hurry (`NumberReader.bestEffort`).

Each step of the recursion either consumes a character or turns from the items
of a container to the first of them, so twice the length of the text bounds it.
-/

namespace Plotting
namespace Document

/-- The blanks between the tokens of a JSON text. -/
def isBlank (c : Char) : Bool :=
  c == ' ' || c == '\t' || c == '\n' || c == '\r'

/-- The text from its first character that is not blank. -/
def skipBlanks (cs : List Char) : List Char :=
  cs.dropWhile isBlank

/-! ## Strings -/

/-- The character that a one-letter escape stands for. -/
def escape? : Char → Option Char
  | '"' => some '"'
  | '\\' => some '\\'
  | '/' => some '/'
  | 'b' => some '\x08'
  | 'f' => some '\x0C'
  | 'n' => some '\n'
  | 'r' => some '\r'
  | 't' => some '\t'
  | _ => none

/-- The value of a hexadecimal digit. -/
def hexDigit? (c : Char) : Option Nat :=
  if c.isDigit then some (c.toNat - '0'.toNat)
  else if 'a' ≤ c ∧ c ≤ 'f' then some (c.toNat - 'a'.toNat + 10)
  else if 'A' ≤ c ∧ c ≤ 'F' then some (c.toNat - 'A'.toNat + 10)
  else none

/-- The value of four hexadecimal digits. -/
def hexUnit? (a b c d : Char) : Option Nat := do
  return (((← hexDigit? a) * 16 + (← hexDigit? b)) * 16 + (← hexDigit? c)) * 16 + (← hexDigit? d)

/-- The code units and code points of a string whose opening quote has been
read, and the text after its closing quote. -/
def readUnits : List Char → Option (List Nat × List Char)
  | [] => none
  | '"' :: rest => some ([], rest)
  | '\\' :: 'u' :: a :: b :: c :: d :: rest => do
    let unit ← hexUnit? a b c d
    let (units, rest) ← readUnits rest
    return (unit :: units, rest)
  | '\\' :: c :: rest => do
    let c ← escape? c
    let (units, rest) ← readUnits rest
    return (c.toNat :: units, rest)
  | c :: rest =>
    if c.toNat < 0x20 then none
    else do
      let (units, rest) ← readUnits rest
      return (c.toNat :: units, rest)

/-- Whether a code unit is the first half of a pair. -/
def isHighHalf (n : Nat) : Bool := 0xD800 ≤ n && n < 0xDC00

/-- Whether a code unit is the second half of a pair. -/
def isLowHalf (n : Nat) : Bool := 0xDC00 ≤ n && n < 0xE000

/-- The characters of code units; a half without the other spells none. -/
def joinUnits? : List Nat → Option (List Char)
  | [] => some []
  | n :: units =>
    if isHighHalf n then
      match units with
      | m :: units =>
        if isLowHalf m then
          (joinUnits? units).map (Char.ofNat (0x10000 + (n - 0xD800) * 0x400 + (m - 0xDC00)) :: ·)
        else none
      | [] => none
    else if isLowHalf n then none
    else (joinUnits? units).map (Char.ofNat n :: ·)

/-- A string whose opening quote has been read, if it spells one, and the text
after it. -/
def readString (cs : List Char) : Option (Option String × List Char) := do
  let (units, rest) ← readUnits cs
  return ((joinUnits? units).map String.ofList, rest)

/-! ## Numbers -/

/-- Whether JSON admits a numeral: digits, the first of several not a zero, and
digits after a point. -/
def admits (n : Numeral) : Bool :=
  !n.whole.isEmpty && (n.whole.length == 1 || n.whole.head? != some '0') &&
    (!n.point || !n.fraction.isEmpty)

/-- The number that a sign and a numeral spell.  Without point and exponent it
is whole, unless it is negative zero or needs more than 64 bits. -/
def ofNumeral (reader : NumberReader) (negative : Bool) (n : Numeral) : Document :=
  let whole := Nat.ofDigitChars 10 n.whole 0
  let isWhole := !n.point && n.exponent.isNone
  if isWhole && !negative && whole < Nat.pow 2 64 then .int whole
  else if isWhole && negative && whole != 0 && whole ≤ Nat.pow 2 63 then .int (-whole)
  else
    let x := reader.magnitude n
    if x.isFinite then .float (if negative then -x else x) else .unreadable

/-- The number at the front of a text, and the text after it. -/
def readNumber (reader : NumberReader) (cs : List Char) : Option (Document × List Char) :=
  let negative := cs.head? == some '-'
  let cs := if negative then cs.tail else cs
  let n := Numeral.scan cs
  if admits n then some (ofNumeral reader negative n, cs.drop n.text.length) else none

/-! ## Values -/

/-- The object of members whose keys may be unreadable. -/
def ofReadMembers (members : List (Option String × Document)) : Document :=
  match members.mapM fun m => m.1.map fun k => (k, m.2) with
  | some ms => .obj ms
  | none => .unreadable

mutual

/-- The value at the front of a text, and the text after it. -/
def readValue (reader : NumberReader) : Nat → List Char → Option (Document × List Char)
  | 0, _ => none
  | _ + 1, [] => none
  | _ + 1, 'n' :: 'u' :: 'l' :: 'l' :: rest => some (.null, rest)
  | _ + 1, 't' :: 'r' :: 'u' :: 'e' :: rest => some (.bool true, rest)
  | _ + 1, 'f' :: 'a' :: 'l' :: 's' :: 'e' :: rest => some (.bool false, rest)
  | _ + 1, '"' :: rest => do
    let (s, rest) ← readString rest
    return (match s with | some s => .str s | none => .unreadable, rest)
  | fuel + 1, '[' :: rest => do
    let rest := skipBlanks rest
    if rest.head? = some ']' then
      return (.arr [], rest.tail)
    else
      let (items, rest) ← readItems reader fuel rest
      return (.arr items, rest)
  | fuel + 1, '{' :: rest => do
    let rest := skipBlanks rest
    if rest.head? = some '}' then
      return (.obj [], rest.tail)
    else
      let (members, rest) ← readMembers reader fuel rest
      return (ofReadMembers members, rest)
  | _ + 1, cs => readNumber reader cs

/-- The items of an array from its next item on, and the text after it. -/
def readItems (reader : NumberReader) : Nat → List Char → Option (List Document × List Char)
  | 0, _ => none
  | fuel + 1, cs => do
    let (item, rest) ← readValue reader fuel cs
    match skipBlanks rest with
    | ',' :: rest =>
      let (items, rest) ← readItems reader fuel (skipBlanks rest)
      return (item :: items, rest)
    | ']' :: rest => return ([item], rest)
    | _ => none

/-- The members of an object from its next key on, and the text after it. -/
def readMembers (reader : NumberReader) :
    Nat → List Char → Option (List (Option String × Document) × List Char)
  | 0, _ => none
  | fuel + 1, cs => do
    let some '"' := cs.head? | none
    let (key, rest) ← readString cs.tail
    let ':' :: rest := skipBlanks rest | none
    let (value, rest) ← readValue reader fuel (skipBlanks rest)
    match skipBlanks rest with
    | ',' :: rest =>
      let (members, rest) ← readMembers reader fuel (skipBlanks rest)
      return ((key, value) :: members, rest)
    | '}' :: rest => return ([(key, value)], rest)
    | _ => none

end

/-- The document that a text spells, if it keeps to the grammar. -/
def parse? (text : String) (reader : NumberReader := .bestEffort) : Option Document := do
  let cs := skipBlanks text.toList
  let (d, rest) ← readValue reader (2 * cs.length + 1) cs
  if skipBlanks rest = [] then some d else none

end Document
end Plotting
