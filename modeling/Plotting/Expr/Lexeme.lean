import Plotting.Text
import Plotting.Expr.Error

/-!
# Cutting a formula into tokens

`Token.lexeme` says what the longest lexeme at the front of a text is and how
many characters it takes.  `Token.scan` runs over the text one character at a
time.  At the start of a lexeme it emits the token and passes over the other
characters of the lexeme, so the recursion is on the text itself, and the
equation `scanFrom_skip` turns the passing over into a single drop.
-/

namespace Plotting
namespace Token

/-- Whether an identifier may begin with the character. -/
def beginsIdent (c : Char) : Bool := c.isAlpha || c == '_'

/-- Whether an identifier may go on with the character. -/
def continuesIdent (c : Char) : Bool := c.isAlphanum || c == '_'

/-- Whether a numeral may begin with the character. -/
def beginsNumeral (c : Char) : Bool := c.isDigit || c == '.'

/-- The token at the front of a text that does not begin with a blank, and the
number of its characters. -/
def lexeme (offset : Nat) (c : Char) (cs : List Char) : Except ExprError (Token × Nat) :=
  if beginsNumeral c then
    let numeral := Numeral.scan (c :: cs)
    if numeral.HasDigit then
      .ok (.number numeral.toDecimal.toFloat, numeral.text.length)
    else
      .error (.invalidNumber (String.ofList numeral.text) offset)
  else if beginsIdent c then
    let name := c :: cs.takeWhile continuesIdent
    .ok (.ident (String.ofList name), name.length)
  else if c = '*' then
    if cs.head? = some '*' then .ok (.caret, 2) else .ok (.star, 1)
  else
    match ofChar? c with
    | some token => .ok (token, 1)
    | none => .error (.unexpectedChar c offset)

/-- The tokens of a text whose first `skip` characters belong to a lexeme
already seen and whose first character stands at `offset`. -/
def scanFrom : Nat → Nat → List Char → Except ExprError (List Located)
  | _, _, [] => .ok []
  | skip + 1, offset, c :: cs => scanFrom skip (offset + c.utf8Size) cs
  | 0, offset, c :: cs =>
    if Text.isBlank c then
      scanFrom 0 (offset + c.utf8Size) cs
    else
      match lexeme offset c cs with
      | .error e => .error e
      | .ok (token, width) =>
        match scanFrom (width - 1) (offset + c.utf8Size) cs with
        | .error e => .error e
        | .ok rest => .ok (⟨token, offset⟩ :: rest)

/-- The tokens of a text, in order. -/
def scan (text : String) : Except ExprError (List Located) :=
  scanFrom 0 0 text.toList

/-! ## Passing over a lexeme -/

@[simp] theorem scanFrom_nil (skip offset : Nat) : scanFrom skip offset [] = .ok [] := by
  unfold scanFrom
  rfl

/-- Characters passed over only move the offset. -/
theorem scanFrom_skip (skip offset : Nat) (cs : List Char) :
    scanFrom skip offset cs =
      scanFrom 0 (offset + Text.byteLength (cs.take skip)) (cs.drop skip) := by
  induction cs generalizing skip offset with
  | nil => simp
  | cons c cs ih =>
    cases skip with
    | zero => simp
    | succ skip => simp [scanFrom, ih skip, Nat.add_assoc]

end Token
end Plotting
