import Plotting.Decimal.Basic

/-!
# Numerals

The spelling of an unsigned number, cut into its parts.  `Numeral.scan` takes
the longest numeral a text begins with; which numerals a format admits is for
the format to say.  An exponent marker belongs to the numeral only when digits
follow it, so `2e` is the numeral `2` and a letter.
-/

namespace Plotting

/-- The exponent of a numeral: its marker, an optional sign, and digits. -/
structure Exponent where
  marker : Char
  sign : List Char
  digits : List Char
deriving DecidableEq, Repr

namespace Exponent

/-- The text that the exponent was cut from. -/
def text (x : Exponent) : List Char :=
  x.marker :: (x.sign ++ x.digits)

/-- The signed number that the exponent spells. -/
def value (x : Exponent) : Int :=
  let n : Int := Nat.ofDigitChars 10 x.digits 0
  if x.sign = ['-'] then -n else n

/-- The sign that a text begins with, if any. -/
def signOf : List Char → List Char
  | '+' :: _ => ['+']
  | '-' :: _ => ['-']
  | _ => []

/-- The exponent that a text begins with; without digits there is none. -/
def scan : List Char → Option Exponent
  | [] => none
  | c :: cs =>
    if c = 'e' ∨ c = 'E' then
      let sign := signOf cs
      let digits := (cs.drop sign.length).takeWhile Char.isDigit
      if digits = [] then none else some ⟨c, sign, digits⟩
    else none

end Exponent

/-- Digits, a point with its fraction, and an exponent. -/
structure Numeral where
  whole : List Char
  point : Bool
  fraction : List Char
  exponent : Option Exponent
deriving DecidableEq, Repr

namespace Numeral

/-- The text that the numeral was cut from. -/
def text (n : Numeral) : List Char :=
  n.whole ++ (if n.point then '.' :: n.fraction else []) ++ (n.exponent.map Exponent.text).getD []

/-- A number needs a digit before or after its point. -/
def HasDigit (n : Numeral) : Prop :=
  n.whole ++ n.fraction ≠ []

instance (n : Numeral) : Decidable n.HasDigit :=
  inferInstanceAs (Decidable (_ ≠ _))

/-- The decimal that the numeral spells. -/
def toDecimal (n : Numeral) : Decimal :=
  .ofDigits (Nat.ofDigitChars 10 (n.whole ++ n.fraction) 0)
    ((n.exponent.map Exponent.value).getD 0 - n.fraction.length)

/-- The longest numeral that a text begins with, possibly empty. -/
def scan (cs : List Char) : Numeral :=
  let whole := cs.takeWhile Char.isDigit
  match cs.dropWhile Char.isDigit with
  | '.' :: rest =>
    ⟨whole, true, rest.takeWhile Char.isDigit, Exponent.scan (rest.dropWhile Char.isDigit)⟩
  | rest => ⟨whole, false, [], Exponent.scan rest⟩

end Numeral

/-! ## A numeral is where its text begins -/

theorem Exponent.signOf_append_drop (cs : List Char) :
    signOf cs ++ cs.drop (signOf cs).length = cs := by
  unfold signOf
  split <;> simp

theorem Exponent.scan_text_prefixes {cs : List Char} {x : Exponent} (h : scan cs = some x) :
    x.text <+: cs := by
  cases cs with
  | nil => cases h
  | cons c cs =>
    simp only [scan] at h
    split at h
    case isFalse => cases h
    split at h
    case isTrue => cases h
    cases h
    refine ⟨(cs.drop (signOf cs).length).dropWhile Char.isDigit, ?_⟩
    simp [text, List.takeWhile_append_dropWhile, signOf_append_drop]

theorem Exponent.scan_getD_text_prefixes (cs : List Char) :
    ((scan cs).map text).getD [] <+: cs := by
  cases h : scan cs with
  | none => simp
  | some x => simpa using scan_text_prefixes h

/-- What is scanned is what the text begins with. -/
theorem Numeral.scan_text_prefixes (cs : List Char) : (scan cs).text <+: cs := by
  have hw := List.takeWhile_append_dropWhile (p := Char.isDigit) (l := cs)
  unfold scan
  split
  · rename_i rest hrest
    obtain ⟨t, ht⟩ := Exponent.scan_getD_text_prefixes (rest.dropWhile Char.isDigit)
    refine ⟨t, ?_⟩
    rw [hrest] at hw
    simp [text, ht, List.takeWhile_append_dropWhile, hw]
  · obtain ⟨t, ht⟩ := Exponent.scan_getD_text_prefixes (cs.dropWhile Char.isDigit)
    refine ⟨t, ?_⟩
    simp [text, ht, hw]

end Plotting
