import Plotting.Decimal.Numeral

/-!
# Numerals are scanned as they were spelled

A numeral whose parts are made of the right characters is scanned from its own
text, whatever comes after it, as long as that could not belong to the numeral:
the scan takes the longest numeral, so no digit, point or exponent marker may
follow.
-/

namespace Plotting

/-! ## Runs of digits -/

/-- Every character is a digit. -/
def AllDigits (cs : List Char) : Prop :=
  ∀ c ∈ cs, c.isDigit = true

theorem AllDigits.append {cs ds : List Char} (hc : AllDigits cs) (hd : AllDigits ds) :
    AllDigits (cs ++ ds) := by
  intro c h
  rcases List.mem_append.mp h with h | h
  · exact hc c h
  · exact hd c h

theorem allDigits_toDigits (n : Nat) : AllDigits (Nat.toDigits 10 n) :=
  fun _ h => Nat.isDigit_of_mem_toDigits (by decide) (by decide) h

theorem allDigits_replicate_zero (n : Nat) : AllDigits (List.replicate n '0') := by
  intro c h
  rw [List.eq_of_mem_replicate h]
  decide

/-- The first character, if any, is no digit. -/
def NoDigitFirst (cs : List Char) : Prop :=
  ∀ c ∈ cs.head?, c.isDigit = false

theorem takeWhile_isDigit {ds rest : List Char} (hds : AllDigits ds) (hrest : NoDigitFirst rest) :
    (ds ++ rest).takeWhile Char.isDigit = ds := by
  rw [List.takeWhile_append_of_pos hds]
  cases rest with
  | nil => rw [List.takeWhile_nil, List.append_nil]
  | cons c cs =>
    rw [List.takeWhile_cons_of_neg (by simp [hrest c rfl]), List.append_nil]

theorem dropWhile_isDigit {ds rest : List Char} (hds : AllDigits ds) (hrest : NoDigitFirst rest) :
    (ds ++ rest).dropWhile Char.isDigit = rest := by
  rw [List.dropWhile_append_of_pos hds]
  cases rest with
  | nil => rfl
  | cons c cs => exact List.dropWhile_cons_of_neg (by simp [hrest c rfl])

/-! ## Exponents -/

namespace Exponent

/-- A marker, one sign at most, and digits. -/
structure WellFormed (x : Exponent) : Prop where
  marker : x.marker = 'e' ∨ x.marker = 'E'
  sign : x.sign = [] ∨ x.sign = ['+'] ∨ x.sign = ['-']
  digits : AllDigits x.digits
  nonempty : x.digits ≠ []

/-- A digit is no sign. -/
theorem signOf_digit {c : Char} (hc : c.isDigit = true) (cs : List Char) :
    signOf (c :: cs) = [] := by
  unfold signOf
  split
  · next h =>
    rw [(List.cons.inj h).1] at hc
    cases hc
  · next h =>
    rw [(List.cons.inj h).1] at hc
    cases hc
  · rfl

theorem scan_text {x : Exponent} (h : x.WellFormed) {rest : List Char}
    (hrest : NoDigitFirst rest) : scan (x.text ++ rest) = some x := by
  have hsign : signOf (x.sign ++ (x.digits ++ rest)) = x.sign := by
    rcases h.sign with hs | hs | hs
    · obtain ⟨d, ds, hds⟩ := List.exists_cons_of_ne_nil h.nonempty
      rw [hs, hds]
      exact signOf_digit (h.digits d (by rw [hds]; exact List.mem_cons_self)) _
    · rw [hs]
      rfl
    · rw [hs]
      rfl
  have hdigits : (x.digits ++ rest).takeWhile Char.isDigit = x.digits :=
    takeWhile_isDigit h.digits hrest
  simp only [text, List.cons_append, List.append_assoc, scan, if_pos h.marker, hsign,
    List.drop_left, hdigits, if_neg h.nonempty]

/-- Without a marker in front there is no exponent. -/
theorem scan_eq_none {rest : List Char} (h : ∀ c ∈ rest.head?, c ≠ 'e' ∧ c ≠ 'E') :
    scan rest = none := by
  cases rest with
  | nil => rfl
  | cons c cs =>
    obtain ⟨he, hE⟩ := h c rfl
    exact if_neg fun hc => hc.elim he hE

end Exponent

/-! ## Numerals -/

namespace Numeral

/-- The decimal with all the digits of the numeral, zeros at the end included. -/
def written (n : Numeral) : Decimal where
  digits := Nat.ofDigitChars 10 (n.whole ++ n.fraction) 0
  exponent := (n.exponent.map Exponent.value).getD 0 - n.fraction.length

theorem toDecimal_eq (n : Numeral) :
    n.toDecimal = .ofDigits n.written.digits n.written.exponent := rfl

/-- The text goes on with nothing that could belong to a numeral. -/
def Ends (rest : List Char) : Prop :=
  ∀ c ∈ rest.head?, c.isDigit = false ∧ c ≠ '.' ∧ c ≠ 'e' ∧ c ≠ 'E'

theorem Ends.noDigitFirst {rest : List Char} (h : Ends rest) : NoDigitFirst rest :=
  fun c hc => (h c hc).1

/-- The parts of the numeral are made of the right characters. -/
structure WellFormed (n : Numeral) : Prop where
  whole : AllDigits n.whole
  fraction : AllDigits n.fraction
  point : n.point = false → n.fraction = []
  exponent : ∀ x ∈ n.exponent, x.WellFormed

/-- The exponent is scanned, or found to be missing. -/
theorem WellFormed.scan_exponent {n : Numeral} (h : n.WellFormed) {rest : List Char}
    (hrest : Ends rest) :
    Exponent.scan ((n.exponent.map Exponent.text).getD [] ++ rest) = n.exponent := by
  cases hx : n.exponent with
  | none => exact Exponent.scan_eq_none fun c hc => (hrest c hc).2.2
  | some x => exact Exponent.scan_text (h.exponent x hx) hrest.noDigitFirst

theorem WellFormed.noDigitFirst_exponent {n : Numeral} (h : n.WellFormed) {rest : List Char}
    (hrest : Ends rest) : NoDigitFirst ((n.exponent.map Exponent.text).getD [] ++ rest) := by
  cases hx : n.exponent with
  | none => exact hrest.noDigitFirst
  | some x =>
    intro c hc
    have hmarker : c = x.marker := (Option.some_inj.mp hc).symm
    rcases (h.exponent x hx).marker with hm | hm <;> rw [hmarker, hm] <;> decide

/-- Past a point the fraction and the exponent are scanned. -/
theorem scan_pointed {whole : List Char} (hwhole : AllDigits whole) (tail : List Char) :
    scan (whole ++ '.' :: tail) =
      ⟨whole, true, tail.takeWhile Char.isDigit, Exponent.scan (tail.dropWhile Char.isDigit)⟩ := by
  have hpoint : NoDigitFirst ('.' :: tail) := by
    intro c hc
    rw [← Option.some_inj.mp hc]
    decide
  simp only [scan, takeWhile_isDigit hwhole hpoint, dropWhile_isDigit hwhole hpoint]

/-- Without a point the exponent comes next. -/
theorem scan_pointless {whole tail : List Char} (hwhole : AllDigits whole)
    (hfirst : NoDigitFirst tail) (hpoint : ∀ c ∈ tail.head?, c ≠ '.') :
    scan (whole ++ tail) = ⟨whole, false, [], Exponent.scan tail⟩ := by
  rw [scan, takeWhile_isDigit hwhole hfirst, dropWhile_isDigit hwhole hfirst]
  split
  · exact absurd rfl (hpoint '.' rfl)
  · rfl

/-- The text of a numeral with a point. -/
theorem text_pointed (whole fraction : List Char) (exponent : Option Exponent) :
    text ⟨whole, true, fraction, exponent⟩ =
      whole ++ '.' :: (fraction ++ (exponent.map Exponent.text).getD []) := by
  simp only [text, if_true, List.append_assoc, List.cons_append]

/-- The text of a numeral without one. -/
theorem text_pointless (whole : List Char) (exponent : Option Exponent) :
    text ⟨whole, false, [], exponent⟩ = whole ++ (exponent.map Exponent.text).getD [] := by
  simp only [text, Bool.false_eq_true, if_false, List.append_nil]

/-- A numeral is scanned from its text. -/
theorem scan_text {n : Numeral} (h : n.WellFormed) {rest : List Char} (hrest : Ends rest) :
    scan (n.text ++ rest) = n := by
  obtain ⟨whole, point, fraction, exponent⟩ := n
  have hexponent := h.scan_exponent hrest
  have hfirst := h.noDigitFirst_exponent hrest
  cases point with
  | true =>
    rw [text_pointed, List.append_assoc, List.cons_append, List.append_assoc,
      scan_pointed h.whole, takeWhile_isDigit h.fraction hfirst,
      dropWhile_isDigit h.fraction hfirst, hexponent]
  | false =>
    obtain rfl : fraction = [] := h.point rfl
    have hpoint : ∀ c ∈ ((exponent.map Exponent.text).getD [] ++ rest).head?, c ≠ '.' := by
      cases exponent with
      | none => exact fun c hc => (hrest c hc).2.1
      | some x =>
        intro c hc hdot
        have hmarker : x.marker = '.' := (Option.some_inj.mp hc).trans hdot
        rcases (h.exponent x rfl).marker with hm | hm <;> rw [hm] at hmarker <;> cases hmarker
    rw [text_pointless, List.append_assoc, scan_pointless h.whole hfirst hpoint, hexponent]

end Numeral
end Plotting
