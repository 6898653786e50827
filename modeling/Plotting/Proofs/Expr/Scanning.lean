import Mathlib.Data.Nat.Notation
import Plotting.Expr.Lexeme

/-!
# Where tokens stand

The offsets that scanning gives to tokens, and to the characters it cannot read, count bytes, and
they are positions between characters of the text: scanning moves on by whole characters, also
inside a lexeme.  A text is without tokens exactly when all of its characters are blank.
-/

namespace Plotting

/-- The error is about characters that are no lexeme. -/
def ExprError.isLexical : ExprError → Bool
  | .unexpectedChar _ _ | .invalidNumber _ _ => true
  | _ => false

namespace Text
variable {text : String} {front cs : List Char}

/-- The bytes of a text are those of its characters. -/
theorem byteLength_eq_utf8ByteSize (cs : List Char) :
    byteLength cs = (String.ofList cs).utf8ByteSize := by
  induction cs with
  | nil => rfl
  | cons c cs ih =>
    have hsplit : String.ofList (c :: cs) = String.singleton c ++ String.ofList cs := by
      rw [String.singleton_eq_ofList, ← String.ofList_append, List.singleton_append]
    rw [hsplit, String.utf8ByteSize_append, String.utf8ByteSize_singleton, byteLength_cons, ih]

theorem byteLength_toList (text : String) : byteLength text.toList = text.utf8ByteSize := by
  rw [byteLength_eq_utf8ByteSize, String.ofList_toList]

/-- A position of the text, at which a character begins or the text ends. -/
def IsPosition (text : String) (offset : ℕ) : Prop :=
  (⟨offset⟩ : String.Pos.Raw).IsValid text

/-- Where some of the characters have been read, there is a position. -/
theorem isPosition_of_append (h : text.toList = front ++ cs) :
    IsPosition text (byteLength front) := by
  refine String.Pos.Raw.isValid_iff_exists_append.mpr ⟨.ofList front, .ofList cs, ?_, ?_⟩
  · rw [← String.ofList_append, ← h, String.ofList_toList]
  · rw [byteLength_eq_utf8ByteSize]
    rfl

theorem isPosition_zero (text : String) : IsPosition text 0 := by
  have hplace : IsPosition text (byteLength []) := isPosition_of_append rfl
  exact hplace

theorem isPosition_end (text : String) : IsPosition text (byteLength text.toList) :=
  isPosition_of_append (List.append_nil _).symm

theorem IsPosition.le {offset : ℕ} (h : IsPosition text offset) : offset ≤ text.utf8ByteSize :=
  h.le_rawEndPos

end Text

namespace Token
variable {text : String} {places : ℕ → Prop}

/-- What scanning gives stands at the places, be it tokens or characters that it cannot read. -/
def Placed (places : ℕ → Prop) : Except ExprError (List Located) → Prop
  | .ok tokens => ∀ found ∈ tokens, places found.offset
  | .error e => e.isLexical = true ∧ places e.offset

/-- A lexeme that cannot be read is reported where it begins. -/
theorem lexeme_eq_error {offset : ℕ} {c : Char} {cs : List Char} {e : ExprError}
    (h : lexeme offset c cs = .error e) : e.isLexical = true ∧ e.offset = offset := by
  unfold lexeme at h
  split at h
  · dsimp only at h
    split at h
    · cases h
    · cases h
      exact ⟨rfl, rfl⟩
  · split at h
    · cases h
    · split at h
      · split at h <;> cases h
      · split at h
        · cases h
        · cases h
          exact ⟨rfl, rfl⟩

/-- From a position of the text scanning goes on to positions of the text. -/
theorem placed_scanFrom {skip : ℕ} {front cs : List Char} (h : text.toList = front ++ cs) :
    Placed (Text.IsPosition text) (scanFrom skip (Text.byteLength front) cs) := by
  induction cs generalizing skip front with
  | nil =>
    rw [scanFrom_nil]
    intro found hfound
    cases hfound
  | cons c cs ih =>
    have hnext : ∀ skip, Placed (Text.IsPosition text)
        (scanFrom skip (Text.byteLength front + c.utf8Size) cs) := by
      intro skip
      have hlength : Text.byteLength front + c.utf8Size = Text.byteLength (front ++ [c]) := by
        rw [Text.byteLength_append, Text.byteLength_cons, Text.byteLength_nil, Nat.add_zero]
      rw [hlength]
      exact ih (by rw [h, List.append_assoc, List.singleton_append])
    cases skip with
    | succ skip => exact hnext skip
    | zero =>
      have hplace : Text.IsPosition text (Text.byteLength front) := Text.isPosition_of_append h
      rw [scanFrom]
      split
      · exact hnext 0
      · split
        · next e he =>
          obtain ⟨hlexical, hoffset⟩ := lexeme_eq_error he
          exact ⟨hlexical, hoffset ▸ hplace⟩
        · next token width _ =>
          have hrest := hnext (width - 1)
          split
          · next e he =>
            rw [he] at hrest
            exact hrest
          · next rest hscan =>
            rw [hscan] at hrest
            intro found hfound
            obtain rfl | hfound := List.mem_cons.mp hfound
            · exact hplace
            · exact hrest found hfound

theorem placed_scan (text : String) : Placed (Text.IsPosition text) (scan text) := by
  have hplaced : Placed (Text.IsPosition text) (scanFrom 0 (Text.byteLength []) text.toList) :=
    placed_scanFrom rfl
  exact hplaced

theorem scanFrom_eq_ok_nil_iff {offset : ℕ} {cs : List Char} :
    scanFrom 0 offset cs = .ok [] ↔ ∀ c ∈ cs, Text.isBlank c = true := by
  induction cs generalizing offset with
  | nil => simp
  | cons c cs ih =>
    rw [scanFrom, List.forall_mem_cons]
    split
    · next hblank => rw [ih, and_iff_right hblank]
    · next hblank =>
      refine ⟨fun h => ?_, fun h => absurd h.1 hblank⟩
      split at h
      · cases h
      · split at h <;> cases h

/-- A text without tokens is blank. -/
theorem scan_eq_ok_nil_iff :
    scan text = .ok [] ↔ ∀ c ∈ text.toList, Text.isBlank c = true :=
  scanFrom_eq_ok_nil_iff

end Token
end Plotting
