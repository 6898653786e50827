import Mathlib.Data.Nat.Notation
import Plotting.Expr.Parser
import Plotting.Proofs.Expr.Words

/-!
# Scanning is splitting by longest match

The summary of what `Token.scan` does with a text: its tokens are the lexemes of the split by
longest match, its errors tell where the split comes to an end and why, all offsets are positions of
the text and increase up to the end, and blanks between words show in nothing but offsets.

Offsets count bytes, and numbers are measured by their characters, one byte each.  That the two
agree is the statement about `slices`: wherever a number or a name is cut out of a text, and
wherever digits are looked for behind a marker, the offsets that bound the piece are positions of
the text, and the piece between them is the one that scanning reads as a list of characters.
-/

namespace Plotting

namespace Numeral

/-- The numeral without its exponent. -/
def mantissa (n : Numeral) : Numeral :=
  { n with exponent := none }

variable {n : Numeral}

theorem WellFormed.mantissa (h : n.WellFormed) : n.mantissa.WellFormed :=
  ⟨h.whole, h.fraction, h.point, fun _ h => absurd h (Option.not_mem_none _)⟩

theorem mantissa_text_prefixes (n : Numeral) : n.mantissa.text <+: n.text := by
  simp only [text, mantissa, Option.map_none, Option.getD_none, List.append_nil]
  exact List.prefix_append _ _

end Numeral

/-- Between two positions of the text stands the piece. -/
structure Text.IsSlice (text : String) (start stop : ℕ) (piece : List Char) : Prop where
  begins : IsPosition text start
  ends : IsPosition text stop
  between : ∃ front rest, text.toList = front ++ (piece ++ rest) ∧ byteLength front = start ∧
    byteLength (front ++ piece) = stop

namespace Token

/-- The pieces that reading a lexeme cuts out of a text of some length, each with the offsets that
bound it.  A number is cut out as a whole, and what follows a marker is looked at with its sign and
without; the offsets count one byte for each character of a number. -/
def slices (length offset : ℕ) (c : Char) (cs : List Char) : List (ℕ × ℕ × List Char) :=
  if beginsNumeral c then
    let number := Numeral.scan (c :: cs)
    let mantissa := number.mantissa.text
    let behind := offset + mantissa.length + 1
    (offset, offset + number.text.length, number.text) ::
      match (c :: cs).drop mantissa.length with
      | [] => []
      | marker :: more =>
        if marker = 'e' ∨ marker = 'E' then
          let sign := Exponent.signOf more
          [(behind, length, more), (behind + sign.length, length, more.drop sign.length)]
        else []
  else if beginsIdent c then
    let name := c :: cs.takeWhile continuesIdent
    [(offset, offset + Text.byteLength name, name)]
  else []

variable {text : String} {c : Char} {cs front piece rest w : List Char} {t : Token}

/-! ## Slices -/

/-- In the alphabet a character is a byte. -/
theorem byteLength_of_inAlphabet (h : ∀ c ∈ piece, inAlphabet c = true) :
    Text.byteLength piece = piece.length := by
  induction piece with
  | nil => rfl
  | cons c cs ih =>
    obtain ⟨hc, hcs⟩ := List.forall_mem_cons.mp h
    rw [Text.byteLength_cons, utf8Size_of_inAlphabet hc, ih hcs, List.length_cons, Nat.add_comm]

theorem isSlice_of_append (h : text.toList = front ++ (piece ++ rest)) :
    Text.IsSlice text (Text.byteLength front) (Text.byteLength (front ++ piece)) piece where
  begins := Text.isPosition_of_append h
  ends := Text.isPosition_of_append (by rw [h, List.append_assoc])
  between := ⟨front, rest, h, rfl, rfl⟩

/-- A piece of the alphabet ends as many bytes behind its start as it has characters. -/
theorem isSlice_of_inAlphabet (h : text.toList = front ++ (piece ++ rest))
    (hpiece : ∀ c ∈ piece, inAlphabet c = true) :
    Text.IsSlice text (Text.byteLength front) (Text.byteLength front + piece.length) piece := by
  rw [← byteLength_of_inAlphabet hpiece, ← Text.byteLength_append]
  exact isSlice_of_append h

/-- The text from a place on, so many characters of the alphabet behind another. -/
theorem isSlice_behind (h : text.toList = front ++ (piece ++ rest))
    (hpiece : ∀ c ∈ piece, inAlphabet c = true) :
    Text.IsSlice text (Text.byteLength front + piece.length) text.utf8ByteSize rest := by
  rw [← Text.byteLength_toList, h, ← byteLength_of_inAlphabet hpiece, ← Text.byteLength_append,
    ← List.append_assoc]
  exact isSlice_of_append (by rw [h, List.append_assoc, List.append_nil])

/-- A name ends where its characters do. -/
theorem isSlice_name (h : text.toList = front ++ c :: cs) :
    Text.IsSlice text (Text.byteLength front)
      (Text.byteLength front + Text.byteLength (c :: cs.takeWhile continuesIdent))
      (c :: cs.takeWhile continuesIdent) := by
  rw [← Text.byteLength_append]
  have hname : text.toList =
      front ++ ((c :: cs.takeWhile continuesIdent) ++ cs.dropWhile continuesIdent) := by
    rw [h, List.cons_append, List.takeWhile_append_dropWhile]
  exact isSlice_of_append hname

/-- Behind a marker the text is cut at a byte for each character of the mantissa and one for the
marker, and a sign is one byte more. -/
theorem isSlice_exponent {mantissa more : List Char} {marker : Char}
    (h : text.toList = front ++ (mantissa ++ marker :: more))
    (hmantissa : ∀ c ∈ mantissa, inAlphabet c = true) (hmarker : marker = 'e' ∨ marker = 'E') :
    Text.IsSlice text (Text.byteLength front + mantissa.length + 1) text.utf8ByteSize more ∧
    Text.IsSlice text
      (Text.byteLength front + mantissa.length + 1 + (Exponent.signOf more).length)
      text.utf8ByteSize (more.drop (Exponent.signOf more).length) := by
  have hmarked : ∀ c ∈ mantissa ++ [marker], inAlphabet c = true :=
    List.forall_mem_append.mpr ⟨hmantissa, List.forall_mem_singleton.mpr
      (by rcases hmarker with rfl | rfl <;> decide)⟩
  have hsigned : ∀ c ∈ mantissa ++ [marker] ++ Exponent.signOf more, inAlphabet c = true :=
    List.forall_mem_append.mpr
      ⟨hmarked, Exponent.inAlphabet_of_sign (Exponent.signOf_cases more)⟩
  refine ⟨?_, ?_⟩
  · have hbehind : text.toList = front ++ ((mantissa ++ [marker]) ++ more) := by
      rw [h, List.append_assoc, List.singleton_append]
    have hplace := isSlice_behind hbehind hmarked
    rwa [List.length_append, List.length_singleton, ← Nat.add_assoc] at hplace
  · have hbehind : text.toList = front ++ ((mantissa ++ [marker] ++ Exponent.signOf more) ++
        more.drop (Exponent.signOf more).length) := by
      rw [h, List.append_assoc (mantissa ++ [marker]), Exponent.signOf_append_drop,
        List.append_assoc, List.singleton_append]
    have hplace := isSlice_behind hbehind hsigned
    rwa [List.length_append, List.length_append, List.length_singleton, ← Nat.add_assoc,
      ← Nat.add_assoc] at hplace

/-- The offsets that bound the pieces are positions of the text, and between them the pieces
stand. -/
theorem isSlice_of_mem_slices (h : text.toList = front ++ c :: cs) :
    ∀ s ∈ slices text.utf8ByteSize (Text.byteLength front) c cs,
      Text.IsSlice text s.1 s.2.1 s.2.2 := by
  intro s hs
  unfold slices at hs
  split at hs
  · have hnumber := Numeral.wellFormed_scan (c :: cs)
    obtain ⟨tail, htail⟩ := Numeral.scan_text_prefixes (c :: cs)
    obtain ⟨after, hafter⟩ := Numeral.mantissa_text_prefixes (Numeral.scan (c :: cs))
    generalize Numeral.scan (c :: cs) = number at hs hnumber htail hafter
    have hsplit : number.mantissa.text ++ (after ++ tail) = c :: cs := by
      rw [← List.append_assoc, hafter, htail]
    rcases List.mem_cons.mp hs with rfl | hs
    · exact isSlice_of_inAlphabet (h.trans (congrArg _ htail.symm)) hnumber.inAlphabet
    · rw [← hsplit, List.drop_left] at hs
      rw [← hsplit] at h
      split at hs
      · cases hs
      · next marker more hmore =>
        rw [hmore] at h
        split at hs
        · next hmarker =>
          obtain ⟨hunsigned, hsigned⟩ := isSlice_exponent h hnumber.mantissa.inAlphabet hmarker
          rcases List.mem_cons.mp hs with rfl | hs
          · exact hunsigned
          · rw [List.mem_singleton.mp hs]
            exact hsigned
        · cases hs
  · split at hs
    · rw [List.mem_singleton.mp hs]
      exact isSlice_name h
    · cases hs

/-! ## The summary -/

/-- The tokens of a text stand at positions of the text, one behind the other, before its end. -/
theorem offsets_of_scan {tokens : List Located} (h : scan text = .ok tokens) :
    (offsets tokens text.utf8ByteSize).Pairwise (· < ·) ∧
      ∀ p ∈ offsets tokens text.utf8ByteSize, Text.IsPosition text p := by
  have hincreasing := (scanFrom_eq_ok_iff.mp h).pairwise_offsets
  have hplaced := placed_scan text
  rw [Nat.zero_add, Text.byteLength_toList] at hincreasing
  rw [h] at hplaced
  refine ⟨hincreasing, List.forall_mem_append.mpr ⟨?_, ?_⟩⟩
  · exact List.forall_mem_map.mpr hplaced
  · rw [List.forall_mem_singleton, ← Text.byteLength_toList]
    exact Text.isPosition_end text

/-- Scanning splits a text from the left into blanks and longest lexemes.  It succeeds when that
reaches the end of the text, with the tokens of the lexemes; the parser goes on with these tokens
and the end.  It fails when the split reaches a character outside the alphabet, or a point without
digits, and reports the first of these.  Wherever a text is cut, it is cut at its characters.  Texts
of the same words have the same tokens. -/
theorem scan_splits_by_longest_match (text : String) :
    (∀ tokens, scan text = .ok tokens ↔ Splits 0 text.toList [] tokens) ∧
    (∀ tokens, scan text = .ok tokens →
      Expr.parse text = Expr.ofTokens tokens text.utf8ByteSize ∧
      (offsets tokens text.utf8ByteSize).Pairwise (· < ·) ∧
      ∀ p ∈ offsets tokens text.utf8ByteSize, Text.IsPosition text p) ∧
    (∀ e, scan text = .error e ↔ ∃ front rest found,
      text.toList = front ++ rest ∧ Splits 0 front rest found ∧
      (∀ c ∈ front, Text.isBlank c = true ∨ inAlphabet c = true) ∧
      Misfit (Text.byteLength front) rest e) ∧
    (∀ front c cs, text.toList = front ++ c :: cs →
      ∀ s ∈ slices text.utf8ByteSize (Text.byteLength front) c cs,
        Text.IsSlice text s.1 s.2.1 s.2.2) ∧
    ∀ other : String, words text.toList = words other.toList → kinds? text = kinds? other := by
  refine ⟨fun _ => scanFrom_eq_ok_iff, fun tokens h => ⟨?_, offsets_of_scan h⟩, fun e => ?_,
    fun _ _ _ h => isSlice_of_mem_slices h, fun _ => kinds?_congr⟩
  · rw [Expr.parse, h, Text.byteLength_toList]
    rfl
  · rw [scan, scanFrom_eq_error_iff]
    refine exists_congr fun front => exists_congr fun rest => exists_congr fun found =>
      and_congr_right fun _ => ?_
    rw [Nat.zero_add]
    exact ⟨fun h => ⟨h.1, h.1.isBlank_or_inAlphabet, h.2⟩, fun h => ⟨h.1, h.2.2⟩⟩

/-- A marker without digits begins a name, and a second point a number. -/
theorem scan_splits_by_longest_match_marker :
    Splits 0 "2e+.5.5\u00a0**_".toList []
      [⟨.number 2, 0⟩, ⟨.ident "e", 1⟩, ⟨.plus, 2⟩, ⟨.number 0.5, 3⟩, ⟨.number 0.5, 5⟩,
        ⟨.caret, 9⟩, ⟨.ident "_", 11⟩] ∧
    Expr.parse "2e+.5.5\u00a0**_" = .error (.unexpectedToken ⟨.ident "e", 1⟩) ∧
    (∃ front rest found, "x\u00a0.e5 %".toList = front ++ rest ∧ Splits 0 front rest found ∧
      (∀ c ∈ front, Text.isBlank c = true ∨ inAlphabet c = true) ∧
      Misfit (Text.byteLength front) rest (.invalidNumber ".e5" 3)) ∧
    kinds? "x\u00a0.e5 %" = kinds? "\u2003 x\t.e5\n%" ∧
    Text.IsSlice "\u00a01e-x" 4 6 ['-', 'x'] := by
  have hscan : scan "2e+.5.5\u00a0**_" =
      .ok [⟨.number 2, 0⟩, ⟨.ident "e", 1⟩, ⟨.plus, 2⟩, ⟨.number 0.5, 3⟩, ⟨.number 0.5, 5⟩,
        ⟨.caret, 9⟩, ⟨.ident "_", 11⟩] := by
    rfl
  obtain ⟨hsplits, hfound, -⟩ := scan_splits_by_longest_match "2e+.5.5\u00a0**_"
  obtain ⟨-, -, hmisfit, -, hwords⟩ := scan_splits_by_longest_match "x\u00a0.e5 %"
  obtain ⟨-, -, -, hslices, -⟩ := scan_splits_by_longest_match "\u00a01e-x"
  refine ⟨(hsplits _).mp hscan, ((hfound _ hscan).1).trans rfl, (hmisfit _).mp rfl,
    hwords _ (by decide), ?_⟩
  exact hslices ['\u00a0'] '1' ['e', '-', 'x'] rfl (4, 6, ['-', 'x']) (by decide)

end Token
end Plotting
