import Plotting.Decimal.Format
import Plotting.Decimal.Numeral

/-!
# Tokens of a formula

A token is what a lexeme of the text means, and a located token remembers the
byte at which its lexeme starts.  The two spellings of the power operator give
one token.
-/

namespace Plotting

/-- A token of a formula. -/
inductive Token where
  | number (value : Float)
  | ident (name : String)
  | plus | minus | star | slash | caret | opening | closing | comma
deriving DecidableEq, Repr

namespace Token

/-- The text by which a message names a token. -/
def text : Token → String
  | .number value => messageText value
  | .ident name => name
  | .plus => "+"
  | .minus => "-"
  | .star => "*"
  | .slash => "/"
  | .caret => "^"
  | .opening => "("
  | .closing => ")"
  | .comma => ","

/-- The token that one character is by itself; a star may be the first half of
a longer lexeme and is not among them. -/
def ofChar? : Char → Option Token
  | '+' => some .plus
  | '-' => some .minus
  | '/' => some .slash
  | '^' => some .caret
  | '(' => some .opening
  | ')' => some .closing
  | ',' => some .comma
  | _ => none

end Token

/-- A token and the byte offset of its first character. -/
structure Located where
  token : Token
  offset : Nat
deriving DecidableEq, Repr

end Plotting
