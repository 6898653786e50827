import Plotting.Decimal.Format
import Plotting.Json.Reader
import Plotting.Proofs.Decimal.Canonical
import Plotting.Proofs.Decimal.Numerals

/-!
# Decimals are spelled by numerals

Whichever form a number format chooses, the text of a decimal is the text of a
numeral that JSON admits and that denotes this very decimal: written zeros go
back into the exponent, and the number of places after the point is taken off
it.  Such a numeral shows a point or an exponent, so it is never read as a whole
number.
-/

namespace Plotting

/-! ## Digits of a number -/

theorem head?_toDigits_append (n : Nat) (cs : List Char) :
    (Nat.toDigits 10 n ++ cs).head? = (Nat.toDigits 10 n).head? := by
  obtain ⟨c, ds, h⟩ := List.exists_cons_of_ne_nil (Nat.toDigits_ne_nil (n := n) (b := 10))
  rw [h]
  rfl

/-- The first digit of a number is not a zero. -/
theorem head?_toDigits_ne_zero {n : Nat} (hn : 0 < n) : (Nat.toDigits 10 n).head? ≠ some '0' := by
  induction n using Nat.strongRecOn with
  | ind n ih =>
    by_cases h : n < 10
    · rw [Nat.toDigits_of_lt_base h]
      have hall : ∀ m < 10, 0 < m → [Nat.digitChar m].head? ≠ some '0' := by decide
      exact hall n h hn
    · rw [Nat.toDigits_of_base_le (by decide) (by omega), head?_toDigits_append]
      exact ih (n / 10) (by omega) (by omega)

/-! ## Numerals of a decimal -/

namespace Numeral

/-- The numeral spells `d` in a way that JSON admits and takes for no whole
number.  It shows the digits of `d` and no others, or zeros behind a number
without a fraction. -/
structure Spells (n : Numeral) (d : Decimal) : Prop where
  wellFormed : n.WellFormed
  admitted : Document.admits n = true
  notWhole : (!n.point && n.exponent.isNone) = false
  toDecimal : n.toDecimal = d
  shown : n.written = d ∨ 0 ≤ d.exponent ∧ n.written.exponent ≤ 0

/-- A decimal without trailing zeros is spelled by the numeral that shows it. -/
theorem Spells.of_written {n : Numeral} {d : Decimal} (hd : d.IsCanonical) (hformed : n.WellFormed)
    (hadmitted : Document.admits n = true) (hnotWhole : (!n.point && n.exponent.isNone) = false)
    (hwritten : n.written = d) : n.Spells d where
  wellFormed := hformed
  admitted := hadmitted
  notWhole := hnotWhole
  toDecimal := by
    rw [toDecimal_eq, hwritten]
    exact Decimal.ofDigits_of_mod_ne_zero _ hd
  shown := Or.inl hwritten

/-- A fraction is not empty, and a first zero stands alone. -/
theorem admits_of_fraction {whole fraction : List Char} {exponent : Option Exponent}
    (hwhole : whole ≠ []) (hzero : whole.length = 1 ∨ whole.head? ≠ some '0')
    (hfraction : fraction ≠ []) :
    Document.admits ⟨whole, true, fraction, exponent⟩ = true := by
  simp only [Document.admits, Bool.not_true, Bool.false_or, Bool.and_eq_true, Bool.or_eq_true,
    Bool.not_eq_true', List.isEmpty_eq_false_iff, beq_iff_eq, bne_iff_ne]
  exact ⟨⟨hwhole, hzero⟩, hfraction⟩

section Forms
variable {d : Decimal}

/-- A whole number with zeros behind its digits and the fraction zero. -/
theorem spells_whole (hd : d.IsCanonical) (he : 0 ≤ d.exponent) :
    Spells ⟨Nat.toDigits 10 d.digits ++ List.replicate d.exponent.toNat '0', true, ['0'], none⟩
      d where
  wellFormed := {
    whole := (allDigits_toDigits _).append (allDigits_replicate_zero _)
    fraction := allDigits_replicate_zero 1
    point := fun h => nomatch h
    exponent := fun x h => nomatch h }
  admitted := by
    refine admits_of_fraction ?_ (Or.inr ?_) (List.cons_ne_nil _ _)
    · exact fun h => Nat.toDigits_ne_nil (List.append_eq_nil_iff.mp h).1
    · rw [head?_toDigits_append]
      exact head?_toDigits_ne_zero hd.pos
  notWhole := rfl
  toDecimal := by
    have hdigits : Nat.ofDigitChars 10 (Nat.toDigits 10 d.digits ++
        List.replicate d.exponent.toNat '0' ++ ['0']) 0 = d.digits * 10 ^ (d.exponent.toNat + 1) := by
      rw [Nat.ofDigitChars_append, Nat.ofDigitChars_append, Nat.ofDigitChars_ten_toDigits,
        Nat.ofDigitChars_replicate_zero, show ['0'] = List.replicate 1 '0' from rfl,
        Nat.ofDigitChars_replicate_zero, ← Nat.mul_assoc, ← Nat.pow_add, Nat.mul_comm,
        Nat.add_comm]
    rw [Numeral.toDecimal, hdigits, Decimal.ofDigits_mul_pow hd]
    cases d
    simp only [Option.map_none, Option.getD_none, List.length_singleton] at he ⊢
    congr 1
    omega
  shown := Or.inr ⟨he, by simp [written]⟩

/-- Digits on both sides of the point. -/
theorem spells_split (hd : d.IsCanonical) {places : Nat} (he : d.exponent = -places)
    (hpos : 0 < places) (hlt : places < (Nat.toDigits 10 d.digits).length) :
    Spells ⟨(Nat.toDigits 10 d.digits).take ((Nat.toDigits 10 d.digits).length - places), true,
      (Nat.toDigits 10 d.digits).drop ((Nat.toDigits 10 d.digits).length - places), none⟩ d := by
  refine .of_written hd ?_ ?_ rfl ?_
  · exact {
      whole := fun c h => allDigits_toDigits _ c (List.mem_of_mem_take h)
      fraction := fun c h => allDigits_toDigits _ c (List.mem_of_mem_drop h)
      point := fun h => nomatch h
      exponent := fun x h => nomatch h }
  · have htake : 0 < (Nat.toDigits 10 d.digits).length - places := by omega
    refine admits_of_fraction ?_ (Or.inr ?_) ?_
    · rw [← List.length_pos_iff, List.length_take]
      omega
    · rw [List.head?_take, if_neg (by omega)]
      exact head?_toDigits_ne_zero hd.pos
    · rw [← List.length_pos_iff, List.length_drop]
      omega
  · simp only [written, List.take_append_drop, Nat.ofDigitChars_ten_toDigits, Option.map_none,
      Option.getD_none, List.length_drop]
    cases d
    simp only at he hlt ⊢
    congr 1
    omega

/-- All digits, and zeros before them, behind the point. -/
theorem spells_small (hd : d.IsCanonical) {places : Nat} (he : d.exponent = -places)
    (hle : (Nat.toDigits 10 d.digits).length ≤ places) :
    Spells ⟨['0'], true, List.replicate (places - (Nat.toDigits 10 d.digits).length) '0' ++
      Nat.toDigits 10 d.digits, none⟩ d := by
  refine .of_written hd ?_ ?_ rfl ?_
  · exact {
      whole := allDigits_replicate_zero 1
      fraction := (allDigits_replicate_zero _).append (allDigits_toDigits _)
      point := fun h => nomatch h
      exponent := fun x h => nomatch h }
  · refine admits_of_fraction (List.cons_ne_nil _ _) (Or.inl rfl) ?_
    exact fun h => Nat.toDigits_ne_nil (List.append_eq_nil_iff.mp h).2
  · have hzeros : ∀ k, Nat.ofDigitChars 10 (['0'] ++ (List.replicate k '0' ++
        Nat.toDigits 10 d.digits)) 0 = d.digits := by
      intro k
      rw [Nat.ofDigitChars_append, show ['0'] = List.replicate 1 '0' from rfl,
        Nat.ofDigitChars_replicate_zero, Nat.ofDigitChars_append,
        Nat.ofDigitChars_replicate_zero, Nat.mul_zero, Nat.ofDigitChars_ten_toDigits]
    simp only [written, hzeros, Option.map_none, Option.getD_none, List.length_append,
      List.length_replicate]
    cases d
    simp only at he hle ⊢
    congr 1
    omega

/-- The exponent of a scientific form, which always shows its sign. -/
def writtenExponent (e : Int) : Exponent where
  marker := 'e'
  sign := [if 0 ≤ e then '+' else '-']
  digits := Nat.toDigits 10 e.natAbs

theorem wellFormed_writtenExponent (e : Int) : (writtenExponent e).WellFormed where
  marker := Or.inl rfl
  sign := by
    by_cases he : 0 ≤ e
    · exact Or.inr (Or.inl (by rw [writtenExponent, if_pos he]))
    · exact Or.inr (Or.inr (by rw [writtenExponent, if_neg he]))
  digits := allDigits_toDigits _
  nonempty := Nat.toDigits_ne_nil

theorem value_writtenExponent (e : Int) : (writtenExponent e).value = e := by
  rw [Exponent.value]
  by_cases he : 0 ≤ e
  · simp only [writtenExponent, if_pos he, Nat.ofDigitChars_ten_toDigits]
    rw [if_neg (by decide)]
    omega
  · simp only [writtenExponent, if_neg he, Nat.ofDigitChars_ten_toDigits]
    rw [if_true]
    omega

/-- One digit before the point, if there are more, and an exponent. -/
theorem spells_scientific (hd : d.IsCanonical) {c : Char} {cs : List Char}
    (hdigits : Nat.toDigits 10 d.digits = c :: cs) :
    Spells ⟨[c], !cs.isEmpty, cs, some (writtenExponent (d.exponent + cs.length))⟩ d := by
  refine .of_written hd ?_ ?_ ?_ ?_
  · exact {
      whole := fun a h => allDigits_toDigits d.digits a (by rw [hdigits]; simp_all)
      fraction := fun a h => allDigits_toDigits d.digits a (by rw [hdigits]; simp [h])
      point := fun h => by simpa using h
      exponent := fun x h => Option.some_inj.mp h ▸ wellFormed_writtenExponent _ }
  · simp [Document.admits]
  · simp
  · simp only [written, List.singleton_append, ← hdigits, Nat.ofDigitChars_ten_toDigits,
      Option.map_some, Option.getD_some, value_writtenExponent]
    cases d
    simp only at hdigits ⊢
    congr 1
    omega

end Forms
end Numeral

/-! ## The written forms -/

namespace NumberFormat
variable {d : Decimal}

/-- With a point alone, one of three numerals is written. -/
theorem exists_spells_positional {f : NumberFormat} (hf : f.fraction = true)
    (hd : d.IsCanonical) :
    ∃ n : Numeral, n.Spells d ∧
      n.text = f.writePositional (Nat.toDigits 10 d.digits) d.exponent := by
  by_cases he : 0 ≤ d.exponent
  · refine ⟨_, Numeral.spells_whole hd he, ?_⟩
    simp only [Numeral.text, writePositional, if_pos he, wholeFraction, hf, if_true,
      Option.map_none, Option.getD_none, List.append_nil]
  · have hplaces : d.exponent = -((-d.exponent).toNat : Int) := by omega
    by_cases hlt : (-d.exponent).toNat < (Nat.toDigits 10 d.digits).length
    · refine ⟨_, Numeral.spells_split hd hplaces (by omega) hlt, ?_⟩
      simp only [Numeral.text, writePositional, if_neg he, if_pos hlt, if_true, Option.map_none,
        Option.getD_none, List.append_nil]
    · refine ⟨_, Numeral.spells_small hd hplaces (by omega), ?_⟩
      simp only [Numeral.text, writePositional, if_neg he, if_neg hlt, if_true, Option.map_none,
        Option.getD_none, List.append_nil, List.cons_append, List.nil_append]

theorem exists_spells_scientific (hd : d.IsCanonical) :
    ∃ n : Numeral, n.Spells d ∧ n.text = writeScientific (Nat.toDigits 10 d.digits)
      (d.exponent + (Nat.toDigits 10 d.digits).length - 1) := by
  obtain ⟨c, cs, hdigits⟩ :=
    List.exists_cons_of_ne_nil (Nat.toDigits_ne_nil (n := d.digits) (b := 10))
  refine ⟨_, Numeral.spells_scientific hd hdigits, ?_⟩
  have hfirst : d.exponent + ((c :: cs).length : Int) - 1 = d.exponent + cs.length := by
    rw [List.length_cons]
    omega
  rw [hdigits, hfirst]
  cases cs with
  | nil =>
    simp [Numeral.text, writeScientific, Exponent.text, Numeral.writtenExponent]
  | cons c' cs =>
    simp [Numeral.text, writeScientific, Exponent.text, Numeral.writtenExponent]

/-- Every decimal without trailing zeros is written as a numeral that spells it. -/
theorem exists_spells_writeDecimal {f : NumberFormat} (hf : f.fraction = true)
    (hd : d.IsCanonical) : ∃ n : Numeral, n.Spells d ∧ n.text = f.writeDecimal d := by
  simp only [writeDecimal]
  split
  · exact exists_spells_positional hf hd
  · split
    · exact exists_spells_positional hf hd
    · exact exists_spells_scientific hd

end NumberFormat
end Plotting
