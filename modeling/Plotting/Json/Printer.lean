import Plotting.Decimal.Format
import Plotting.Json.Basic

/-!
# Writing JSON text

Two forms differ only in what stands between the tokens: the compact one has
nothing, the indented one puts every item on a line of its own, two spaces
deeper than its container.  So there is one printer, and the blanks are its
parameter.
-/

namespace Plotting
namespace Json

/-- The blanks of a form: what comes before an item or a closing bracket at a
given depth, and what follows a colon. -/
structure Spacing where
  lineBreak : Nat → List Char
  afterColon : List Char

/-- No blanks at all. -/
def Spacing.compact : Spacing where
  lineBreak _ := []
  afterColon := []

/-- One item to a line, two spaces to a level. -/
def Spacing.indented : Spacing where
  lineBreak depth := '\n' :: List.replicate (2 * depth) ' '
  afterColon := [' ']

/-- A character of a string.  Only the quote, the backslash and the controls
below the space are escaped, the usual controls by a letter. -/
def escapeChar (c : Char) : List Char :=
  if c = '"' then ['\\', '"']
  else if c = '\\' then ['\\', '\\']
  else if c = '\x08' then ['\\', 'b']
  else if c = '\t' then ['\\', 't']
  else if c = '\n' then ['\\', 'n']
  else if c = '\x0C' then ['\\', 'f']
  else if c = '\r' then ['\\', 'r']
  else if c.toNat < 0x20 then
    ['\\', 'u', '0', '0', Nat.digitChar (c.toNat / 16), Nat.digitChar (c.toNat % 16)]
  else [c]

/-- A string in quotes. -/
def printString (s : String) : List Char :=
  '"' :: (s.toList.flatMap escapeChar ++ ['"'])

/-- A whole number. -/
def printInt (n : Int) : List Char :=
  if n < 0 then '-' :: Nat.toDigits 10 n.natAbs else Nat.toDigits 10 n.natAbs

mutual

/-- The text of a value that stands at a given depth. -/
def print (spacing : Spacing) (depth : Nat) : Json → List Char
  | .null => ['n', 'u', 'l', 'l']
  | .bool true => ['t', 'r', 'u', 'e']
  | .bool false => ['f', 'a', 'l', 's', 'e']
  | .int n => printInt n
  | .float x => jsonNumber.write x
  | .str s => printString s
  | .arr [] => ['[', ']']
  | .arr (j :: js) =>
    '[' :: (spacing.lineBreak (depth + 1) ++ print spacing (depth + 1) j ++
      printItems spacing (depth + 1) js ++ spacing.lineBreak depth ++ [']'])
  | .obj [] => ['{', '}']
  | .obj ((k, j) :: ms) =>
    '{' :: (spacing.lineBreak (depth + 1) ++ printString k ++ ':' :: (spacing.afterColon ++
      print spacing (depth + 1) j) ++ printMembers spacing (depth + 1) ms ++
      spacing.lineBreak depth ++ ['}'])

/-- The items of an array after the first, each behind its comma. -/
def printItems (spacing : Spacing) (depth : Nat) : List Json → List Char
  | [] => []
  | j :: js =>
    ',' :: (spacing.lineBreak depth ++ print spacing depth j ++ printItems spacing depth js)

/-- The members of an object after the first, each behind its comma. -/
def printMembers (spacing : Spacing) (depth : Nat) : List (String × Json) → List Char
  | [] => []
  | (k, j) :: ms =>
    ',' :: (spacing.lineBreak depth ++ printString k ++ ':' :: (spacing.afterColon ++
      print spacing depth j) ++ printMembers spacing depth ms)

end

/-- The text of a value on one line. -/
def compact (j : Json) : String :=
  String.ofList (print .compact 0 j)

/-- The text of a value with one item to a line. -/
def pretty (j : Json) : String :=
  String.ofList (print .indented 0 j)

end Json
end Plotting
