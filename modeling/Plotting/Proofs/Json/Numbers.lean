import Plotting.Json.Printer
import Plotting.Proofs.Decimal.BestEffort
import Plotting.Proofs.Decimal.Spelling
import Plotting.Proofs.Double.Order

/-!
# Numbers are read back

A finite double is printed as a sign and a numeral that spells the shortest decimal of its magnitude.
What that numeral is read as is for the reader of numerals to say: a reader keeps a double if it
takes the numeral to be its magnitude (`NumberReader.Keeps`).  The reader that takes the nearest
double keeps all of them, since the shortest decimal denotes its double (`keeps_nearest`); the one
in a hurry keeps those with a short numeral (`keeps_bestEffort_of_isShort`).

A whole number is printed by its digits alone, which no double is.  The reader takes the longest
numeral it finds, so what comes after a number must not go on with it.
-/

namespace Plotting

/-- The numeral that the magnitude of a double is written as. -/
def NumberFormat.numeral (f : NumberFormat) (x : Float) : Numeral :=
  .scan (f.writeMagnitude x)

/-- The reader takes the text of the double to be this double. -/
def NumberReader.Keeps (reader : NumberReader) (x : Float) : Prop :=
  reader.magnitude (jsonNumber.numeral x) = x.abs

instance (reader : NumberReader) (x : Float) : Decidable (reader.Keeps x) :=
  inferInstanceAs (Decidable (_ = _))

namespace Document

open Double

/-! ## Reading a numeral -/

section Reading
variable {reader : NumberReader} {n : Numeral} {rest : List Char}

/-- An admitted numeral begins with a digit. -/
theorem exists_digit_text (h : n.WellFormed) (hadmits : admits n = true) :
    ∃ c cs, n.text = c :: cs ∧ c.isDigit = true := by
  have hwhole : n.whole ≠ [] := by
    intro hnil
    simp [admits, hnil] at hadmits
  obtain ⟨c, cs, hcons⟩ := List.exists_cons_of_ne_nil hwhole
  have hdigit : c.isDigit = true := h.whole c (by rw [hcons]; exact List.mem_cons_self)
  rw [Numeral.text, hcons, List.append_assoc, List.cons_append]
  exact ⟨c, _, rfl, hdigit⟩

theorem readNumber_text (h : n.WellFormed) (hadmits : admits n = true)
    (hrest : Numeral.Ends rest) :
    readNumber reader (n.text ++ rest) = some (ofNumeral reader false n, rest) := by
  obtain ⟨c, cs, htext, hdigit⟩ := exists_digit_text h hadmits
  have hhead : ((n.text ++ rest).head? == some '-') = false := by
    rw [htext, List.cons_append, List.head?_cons, beq_eq_false_iff_ne]
    intro hminus
    rw [Option.some_inj.mp hminus] at hdigit
    exact absurd hdigit (by decide)
  simp only [readNumber, hhead, Bool.false_eq_true, if_false, Numeral.scan_text h hrest, hadmits,
    if_true, List.drop_left]

theorem readNumber_minus (h : n.WellFormed) (hadmits : admits n = true)
    (hrest : Numeral.Ends rest) :
    readNumber reader ('-' :: n.text ++ rest) = some (ofNumeral reader true n, rest) := by
  have hhead : (('-' :: n.text ++ rest).head? == some '-') = true := rfl
  have htail : ('-' :: n.text ++ rest).tail = n.text ++ rest := rfl
  simp only [readNumber, hhead, htail, if_true, Numeral.scan_text h hrest, hadmits,
    List.drop_left]

end Reading

/-! ## Doubles -/

section Doubles
variable {reader : NumberReader} {x : Float} {rest : List Char}

theorem spells_zero : Numeral.Spells ⟨['0'], true, ['0'], none⟩ ⟨0, 0⟩ where
  wellFormed := {
    whole := allDigits_replicate_zero 1
    fraction := allDigits_replicate_zero 1
    point := fun h => nomatch h
    exponent := fun _ h => nomatch h }
  admitted := rfl
  notWhole := rfl
  toDecimal := rfl
  shown := Or.inr ⟨le_rfl, by decide⟩

/-- A double that is not zero does not equal zero. -/
theorem beq_zero_of_finite {s : Float.Model.UnpackedFloat.Sign} {m : ℕ} {q : ℤ}
    (hc : Canonical m q) (h : x.toModel.unpack = .finite s m q hc.pos) : (x == 0) = false := by
  show (x.toModel.unpack.compare (0 : Float).toModel.unpack == some .eq) = false
  rw [h, unpack_zero]
  cases s <;> rfl

theorem beq_zero_of_zero {s : Float.Model.UnpackedFloat.Sign}
    (h : x.toModel.unpack = .zero s) : (x == 0) = true := by
  show (x.toModel.unpack.compare (0 : Float).toModel.unpack == some .eq) = true
  rw [h, unpack_zero]
  rfl

/-- The magnitude of a finite double is written as a numeral that is read as this
magnitude. -/
theorem exists_spells_writeMagnitude {f : NumberFormat} (hf : f.fraction = true)
    (hx : x.isFinite = true) :
    ∃ n d, Numeral.Spells n d ∧ d.toFloat = x.abs ∧ n.text = f.writeMagnitude x := by
  rcases unpack_cases hx with hzero | ⟨m, q, hc, hmost, hparts, hbinary⟩
  · have hinf : x.isInf = false := by
      show x.toModel.unpack.isInf = false
      rw [hzero]
      rfl
    have hread : (Decimal.mk 0 0).toFloat = x.abs := by
      rw [Decimal.toFloat_zero]
      exact eq_of_unpack_eq (unpack_zero.trans (unpack_abs_of_zero hzero).symm)
    refine ⟨_, _, spells_zero, hread, ?_⟩
    simp [NumberFormat.writeMagnitude, hinf, beq_zero_of_zero hzero, NumberFormat.wholeFraction,
      hf, Numeral.text]
  · have hinf : x.isInf = false := by
      show x.toModel.unpack.isInf = false
      rw [hparts]
      rfl
    have habs : HasParts x.abs m q := ⟨hc, hmost, unpack_abs_of_finite hc hmost hparts⟩
    obtain ⟨n, hspells, htext⟩ := NumberFormat.exists_spells_writeDecimal hf
      (Decimal.isCanonical_shortest f.tie habs hbinary)
    refine ⟨n, _, hspells, Decimal.toFloat_shortest f.tie habs hbinary, ?_⟩
    rw [htext, NumberFormat.writeMagnitude, hinf, beq_zero_of_finite hc hparts]
    rfl

/-- The numeral that the magnitude of a finite double is written as spells a decimal that denotes the
magnitude. -/
theorem exists_spells_numeral (hx : x.isFinite = true) :
    ∃ d, Numeral.Spells (jsonNumber.numeral x) d ∧ d.toFloat = x.abs ∧
      (jsonNumber.numeral x).text = jsonNumber.writeMagnitude x := by
  obtain ⟨n, d, hspells, hdenotes, htext⟩ := exists_spells_writeMagnitude (f := jsonNumber) rfl hx
  have hscan : Numeral.scan (n.text ++ []) = n :=
    Numeral.scan_text hspells.wellFormed fun _ hc => nomatch hc
  rw [List.append_nil, htext] at hscan
  rw [NumberFormat.numeral, hscan]
  exact ⟨d, hspells, hdenotes, htext⟩

/-- The text of a finite double is the text of its numeral, behind its sign. -/
theorem write_eq (hx : x.isFinite = true) :
    jsonNumber.write x = if NumberFormat.isSigned x = true then
      '-' :: (jsonNumber.numeral x).text else (jsonNumber.numeral x).text := by
  obtain ⟨d, -, -, htext⟩ := exists_spells_numeral hx
  rw [NumberFormat.write, isNaN_of_isFinite hx, if_neg Bool.false_ne_true, htext]

/-- The text of a finite double begins with a digit or a minus. -/
theorem exists_first_write (hx : x.isFinite = true) :
    ∃ c cs, jsonNumber.write x = c :: cs ∧ (c.isDigit = true ∨ c = '-') := by
  obtain ⟨d, hspells, -, -⟩ := exists_spells_numeral hx
  obtain ⟨c, cs, hfirst, hdigit⟩ := exists_digit_text hspells.wellFormed hspells.admitted
  rw [write_eq hx]
  by_cases hs : NumberFormat.isSigned x = true
  · rw [if_pos hs]
    exact ⟨'-', _, rfl, Or.inr rfl⟩
  · rw [if_neg hs]
    exact ⟨c, cs, hfirst, Or.inl hdigit⟩

/-- The text of a finite double is read as its numeral is. -/
theorem readNumber_write (hx : x.isFinite = true) (hrest : Numeral.Ends rest) :
    readNumber reader (jsonNumber.write x ++ rest) =
      some (ofNumeral reader (NumberFormat.isSigned x) (jsonNumber.numeral x), rest) := by
  obtain ⟨d, hspells, -, -⟩ := exists_spells_numeral hx
  rw [write_eq hx]
  by_cases hs : NumberFormat.isSigned x = true
  · rw [if_pos hs, hs]
    exact readNumber_minus hspells.wellFormed hspells.admitted hrest
  · rw [if_neg hs, Bool.eq_false_iff.mpr hs]
    exact readNumber_text hspells.wellFormed hspells.admitted hrest

/-- If the reader keeps the magnitude, the numeral and the sign stand for the double. -/
theorem ofNumeral_of_keeps (hx : x.isFinite = true) (hkept : reader.Keeps x) :
    ofNumeral reader (NumberFormat.isSigned x) (jsonNumber.numeral x) = .float x := by
  obtain ⟨d, hspells, -, -⟩ := exists_spells_numeral hx
  have hmagnitude : reader.magnitude (jsonNumber.numeral x) = x.abs := hkept
  have habs : x.abs.isFinite = true := by
    show x.abs.toModel.unpack.isFinite = true
    rcases unpack_cases hx with hzero | ⟨m, q, hc, hmost, hparts, -⟩
    · rw [unpack_abs_of_zero hzero]
      rfl
    · rw [unpack_abs_of_finite hc hmost hparts]
      rfl
  simp only [ofNumeral, hspells.notWhole, Bool.false_and, Bool.false_eq_true, if_false, hmagnitude,
    habs, if_true, signed_abs hx]

end Doubles

/-! ## Whole numbers -/

section Whole
variable {reader : NumberReader} {n : ℤ} {rest : List Char}

/-- The numeral of the digits of a whole number. -/
def wholeNumeral (n : ℕ) : Numeral :=
  ⟨Nat.toDigits 10 n, false, [], none⟩

theorem wellFormed_wholeNumeral (n : ℕ) : (wholeNumeral n).WellFormed where
  whole := allDigits_toDigits n
  fraction := fun _ h => nomatch h
  point := fun _ => rfl
  exponent := fun _ h => nomatch h

theorem admits_wholeNumeral (n : ℕ) : admits (wholeNumeral n) = true := by
  have hzero : n = 0 ∨ (Nat.toDigits 10 n).head? ≠ some '0' := by
    rcases Nat.eq_zero_or_pos n with hn | hn
    · exact Or.inl hn
    · exact Or.inr (head?_toDigits_ne_zero hn)
  rcases hzero with rfl | hfirst
  · decide
  · simp [admits, wholeNumeral, hfirst]

theorem text_wholeNumeral (n : ℕ) : (wholeNumeral n).text = Nat.toDigits 10 n := by
  simp [Numeral.text, wholeNumeral]

theorem ofNumeral_wholeNumeral {k : ℕ} (hk : k < 2 ^ 64) :
    ofNumeral reader false (wholeNumeral k) = .int k := by
  have hwhole : Nat.ofDigitChars 10 (wholeNumeral k).whole 0 = k := Nat.ofDigitChars_ten_toDigits
  have hform : (!(wholeNumeral k).point && (wholeNumeral k).exponent.isNone) = true := rfl
  rw [ofNumeral, hform, hwhole]
  exact if_pos (by simpa using hk)

theorem ofNumeral_minus_wholeNumeral {k : ℕ} (hpos : k ≠ 0) (hk : k ≤ 2 ^ 63) :
    ofNumeral reader true (wholeNumeral k) = .int (-k) := by
  have hwhole : Nat.ofDigitChars 10 (wholeNumeral k).whole 0 = k := Nat.ofDigitChars_ten_toDigits
  have hform : (!(wholeNumeral k).point && (wholeNumeral k).exponent.isNone) = true := rfl
  rw [ofNumeral, hform, hwhole, if_neg (by simp)]
  exact if_pos (by simpa [hpos] using hk)

/-- The text of a whole number begins with a digit or a minus. -/
theorem exists_first_printInt (n : ℤ) :
    ∃ c cs, Json.printInt n = c :: cs ∧ (c.isDigit = true ∨ c = '-') := by
  rw [Json.printInt]
  by_cases hneg : n < 0
  · rw [if_pos hneg]
    exact ⟨'-', _, rfl, Or.inr rfl⟩
  · rw [if_neg hneg, ← text_wholeNumeral]
    obtain ⟨c, cs, hfirst, hdigit⟩ :=
      exists_digit_text (wellFormed_wholeNumeral n.natAbs) (admits_wholeNumeral n.natAbs)
    exact ⟨c, cs, hfirst, Or.inl hdigit⟩

/-- A whole number of 64 bits, signed or not, is read back. -/
theorem readNumber_printInt (hlow : -2 ^ 63 ≤ n) (hhigh : n < 2 ^ 64)
    (hrest : Numeral.Ends rest) :
    readNumber reader (Json.printInt n ++ rest) = some (.int n, rest) := by
  have hformed := wellFormed_wholeNumeral n.natAbs
  have hadmits := admits_wholeNumeral n.natAbs
  rw [Json.printInt, ← text_wholeNumeral]
  by_cases hneg : n < 0
  · have habs : -(n.natAbs : ℤ) = n := by omega
    rw [if_pos hneg, readNumber_minus hformed hadmits hrest,
      ofNumeral_minus_wholeNumeral (by omega) (by omega), habs]
  · have habs : (n.natAbs : ℤ) = n := by omega
    rw [if_neg hneg, readNumber_text hformed hadmits hrest, ofNumeral_wholeNumeral (by omega),
      habs]

end Whole
end Document

/-! ## Doubles that are kept -/

namespace NumberReader
variable {x : Float}

/-- The nearest double to the text of a double is the double itself. -/
theorem keeps_nearest (hx : x.isFinite = true) : nearest.Keeps x := by
  obtain ⟨d, hspells, hdenotes, -⟩ := Document.exists_spells_numeral hx
  have hmagnitude : nearest.magnitude (jsonNumber.numeral x) = d.toFloat :=
    congrArg Decimal.toFloat hspells.toDecimal
  exact hmagnitude.trans hdenotes

/-- A double with a short numeral is kept in a hurry, too. -/
theorem keeps_bestEffort_of_isShort (hx : x.isFinite = true)
    (hshort : (jsonNumber.numeral x).written.IsShort) : bestEffort.Keeps x := by
  obtain ⟨d, hspells, hdenotes, -⟩ := Document.exists_spells_numeral hx
  have hsame : (jsonNumber.numeral x).written.toFloat = d.toFloat := by
    rcases hspells.shown with hwritten | ⟨hwhole, hzeros⟩
    · rw [hwritten]
    · rw [← hspells.toDecimal, Numeral.toDecimal_eq] at hwhole ⊢
      exact (Decimal.toFloat_ofDigits_of_whole hshort hzeros hwhole).symm
  exact (magnitude_of_isShort hshort).trans (hsame.trans hdenotes)

/-- With sixteen digits a double may be missed. -/
example : ¬ bestEffort.Keeps 0.9452706955539223 := by decide

end NumberReader

end Plotting
