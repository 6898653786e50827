import Mathlib.Data.Nat.Notation
import Plotting.Proofs.Decimal.Numerals

/-!
# The scan takes the longest numeral

What `Numeral.scan` finds at the front of a text is a numeral, and every other numeral that the text
begins with is at most as long.  Neither statement looks ahead: the scan takes digits for as long as
there are any, takes a point if there has been none, and takes an exponent only if digits follow its
marker, and it is for this module to show that no shorter choice at one place could have led to a
longer numeral in the end.  The reason is that the characters which may follow a run of digits,
point and marker, are no digits themselves, so a numeral that goes on past the run has taken all of
it.

A numeral is determined by its text, so the scanned one is the only longest numeral
(`eq_scan_of_longest`).
-/

namespace Plotting

/-! ## Runs of digits -/

theorem allDigits_takeWhile (cs : List Char) : AllDigits (cs.takeWhile Char.isDigit) :=
  List.all_eq_true.mp List.all_takeWhile

theorem noDigitFirst_dropWhile (cs : List Char) : NoDigitFirst (cs.dropWhile Char.isDigit) := by
  intro c hc
  have hfirst := List.head?_dropWhile_not Char.isDigit cs
  rw [Option.mem_def.mp hc] at hfirst
  exact hfirst

/-- Digits at the front of a text are in the run that it begins with. -/
theorem AllDigits.length_le_takeWhile {ds : List Char} (h : AllDigits ds) (rest : List Char) :
    ds.length ≤ ((ds ++ rest).takeWhile Char.isDigit).length := by
  rw [List.takeWhile_append_of_pos h, List.length_append]
  exact Nat.le_add_right _ _

/-! ## Exponents -/

namespace Exponent

theorem signOf_cases (cs : List Char) :
    signOf cs = [] ∨ signOf cs = ['+'] ∨ signOf cs = ['-'] := by
  unfold signOf
  split
  · exact Or.inr (Or.inl rfl)
  · exact Or.inr (Or.inr rfl)
  · exact Or.inl rfl

/-- What is scanned as an exponent is one. -/
theorem wellFormed_of_scan {cs : List Char} {x : Exponent} (h : scan cs = some x) :
    x.WellFormed := by
  cases cs with
  | nil => cases h
  | cons c cs =>
    simp only [scan] at h
    split at h
    case isFalse => cases h
    next hmarker =>
      split at h
      case isTrue => cases h
      next hdigits =>
        cases h
        exact ⟨hmarker, signOf_cases cs, allDigits_takeWhile _, hdigits⟩

/-- Where a text begins with an exponent, one at least as long is scanned. -/
theorem WellFormed.exists_scan {x : Exponent} (h : x.WellFormed) (rest : List Char) :
    ∃ y, scan (x.text ++ rest) = some y ∧ x.text.length ≤ y.text.length := by
  let y : Exponent := { x with digits := x.digits ++ rest.takeWhile Char.isDigit }
  have hy : y.WellFormed := {
    marker := h.marker
    sign := h.sign
    digits := h.digits.append (allDigits_takeWhile rest)
    nonempty := List.append_ne_nil_of_left_ne_nil h.nonempty _ }
  have htext : x.text ++ rest = y.text ++ rest.dropWhile Char.isDigit := by
    simp only [y, text, List.cons_append, List.append_assoc, List.takeWhile_append_dropWhile]
  refine ⟨y, ?_, ?_⟩
  · rw [htext]
    exact scan_text hy (noDigitFirst_dropWhile rest)
  · simp only [y, text, List.length_cons, List.length_append]
    omega

/-- An exponent begins with its marker, which is neither a digit nor a point. -/
theorem WellFormed.head?_text {x : Exponent} (h : x.WellFormed) (rest : List Char) :
    ∀ c ∈ (x.text ++ rest).head?, c.isDigit = false ∧ c ≠ '.' := by
  intro c hc
  have hmarker : c = x.marker := (Option.some_inj.mp hc).symm
  rcases h.marker with hm | hm <;> rw [hmarker, hm] <;> decide

end Exponent

/-! ## Numerals -/

namespace Numeral

theorem not_hasDigit_iff {n : Numeral} : ¬ n.HasDigit ↔ n.whole = [] ∧ n.fraction = [] := by
  rw [HasDigit, Decidable.not_not, List.append_eq_nil_iff]

/-- What is scanned is a numeral. -/
theorem wellFormed_scan (cs : List Char) : (scan cs).WellFormed := by
  unfold scan
  split
  · exact ⟨allDigits_takeWhile cs, allDigits_takeWhile _, fun h => (Bool.noConfusion h),
      fun _ h => Exponent.wellFormed_of_scan h⟩
  · exact ⟨allDigits_takeWhile cs, fun _ h => absurd h List.not_mem_nil, fun _ => rfl,
      fun _ h => Exponent.wellFormed_of_scan h⟩

/-- The digits before the point are those that the text begins with. -/
theorem whole_scan (cs : List Char) : (scan cs).whole = cs.takeWhile Char.isDigit := by
  unfold scan
  split <;> rfl

/-- A numeral is determined by its text. -/
theorem eq_of_text_eq {n m : Numeral} (hn : n.WellFormed) (hm : m.WellFormed)
    (h : n.text = m.text) : n = m := by
  have hends : Ends [] := fun _ hc => absurd hc (Option.not_mem_none _)
  calc n = scan (n.text ++ []) := (scan_text hn hends).symm
    _ = scan (m.text ++ []) := by rw [h]
    _ = m := scan_text hm hends

/-- **Longest match.**  No numeral that the text begins with is longer than the scanned one. -/
theorem WellFormed.length_text_le {n : Numeral} (h : n.WellFormed) (rest : List Char) :
    n.text.length ≤ (scan (n.text ++ rest)).text.length := by
  obtain ⟨whole, point, fraction, exponent⟩ := n
  cases point with
  | true =>
    rw [text_pointed, List.append_assoc, List.cons_append, List.append_assoc,
      scan_pointed h.whole, text_pointed]
    cases exponent with
    | none =>
      have hfraction : fraction.length ≤ ((fraction ++ rest).takeWhile Char.isDigit).length :=
        h.fraction.length_le_takeWhile rest
      simp only [Option.map_none, Option.getD_none, List.append_nil, List.nil_append,
        List.length_append, List.length_cons]
      omega
    | some x =>
      -- the marker ends the fraction, so the scan has the same fraction and an exponent as well
      have hx := h.exponent x rfl
      obtain ⟨y, hy, hle⟩ := hx.exists_scan rest
      have hfirst : NoDigitFirst (x.text ++ rest) := fun c hc => (hx.head?_text rest c hc).1
      simp only [Option.map_some, Option.getD_some, takeWhile_isDigit h.fraction hfirst,
        dropWhile_isDigit h.fraction hfirst, hy, List.length_append, List.length_cons]
      omega
  | false =>
    obtain rfl : fraction = [] := h.point rfl
    rw [text_pointless, List.append_assoc]
    cases exponent with
    | none =>
      have hwhole : whole.length ≤ ((whole ++ rest).takeWhile Char.isDigit).length :=
        h.whole.length_le_takeWhile rest
      simp only [Option.map_none, Option.getD_none, List.append_nil, List.nil_append, text,
        List.length_append, whole_scan]
      omega
    | some x =>
      have hx := h.exponent x rfl
      obtain ⟨y, hy, hle⟩ := hx.exists_scan rest
      have hfirst : NoDigitFirst (x.text ++ rest) := fun c hc => (hx.head?_text rest c hc).1
      have hpoint : ∀ c ∈ (x.text ++ rest).head?, c ≠ '.' := fun c hc => (hx.head?_text rest c hc).2
      simp only [Option.map_some, Option.getD_some, scan_pointless h.whole hfirst hpoint, hy,
        text_pointless, List.length_append]
      omega

/-- Where a text begins with a number, a number is scanned. -/
theorem WellFormed.hasDigit_scan {n : Numeral} (h : n.WellFormed) (hdigit : n.HasDigit)
    (rest : List Char) : (scan (n.text ++ rest)).HasDigit := by
  obtain ⟨whole, point, fraction, exponent⟩ := n
  have hdigits : whole ++ fraction ≠ [] := hdigit
  cases point with
  | true =>
    rw [text_pointed, List.append_assoc, List.cons_append, List.append_assoc, scan_pointed h.whole]
    show whole ++ List.takeWhile Char.isDigit (fraction ++ _) ≠ []
    rw [List.takeWhile_append_of_pos h.fraction, ← List.append_assoc]
    exact List.append_ne_nil_of_left_ne_nil hdigits _
  | false =>
    obtain rfl : fraction = [] := h.point rfl
    rw [List.append_nil] at hdigits
    rw [text_pointless, List.append_assoc]
    refine List.append_ne_nil_of_left_ne_nil ?_ _
    rw [whole_scan, List.takeWhile_append_of_pos h.whole]
    exact List.append_ne_nil_of_left_ne_nil hdigits _

/-- The scanned numeral is the only longest one. -/
theorem eq_scan_of_longest {n : Numeral} (h : n.WellFormed) {cs : List Char}
    (hbegins : n.text <+: cs)
    (hlongest : ∀ m : Numeral, m.WellFormed → m.text <+: cs → m.text.length ≤ n.text.length) :
    n = scan cs := by
  have hle : n.text.length ≤ (scan cs).text.length := by
    obtain ⟨rest, rfl⟩ := hbegins
    exact h.length_text_le rest
  have hge := hlongest (scan cs) (wellFormed_scan cs) (scan_text_prefixes cs)
  refine eq_of_text_eq h (wellFormed_scan cs) ?_
  exact (List.prefix_of_prefix_length_le hbegins (scan_text_prefixes cs) hle).eq_of_length
    (Nat.le_antisymm hle hge)

end Numeral
end Plotting
