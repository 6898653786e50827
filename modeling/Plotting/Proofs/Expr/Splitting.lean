import Mathlib.Data.Nat.Notation
import Plotting.Proofs.Expr.Lexemes
import Plotting.Proofs.Expr.Scanning

/-!
# Splitting a text into lexemes

`Splits` says what it is to split a text from the left: at each place take the blank that stands
there or else the longest lexeme, and write down its token and its place.  The relation is about
the front of a text and knows what comes behind, because how long a lexeme is depends on that too.

Every text splits up to its end or up to a place where there is neither a blank nor a lexeme
(`exists_splits`), and `Token.scan` gives the tokens in the first case and the reason in the second
(`scanFrom_eq_ok_iff`, `scanFrom_eq_error_iff`).  That needs no argument about how scanning passes
over the inside of a lexeme but one, `scanFrom_of_isLongest`; all else follows the split.
-/

namespace Plotting
namespace Token

/-- The front of a text, which stands at the offset, splits into blanks and longest lexemes. -/
inductive Splits : ℕ → List Char → List Char → List Located → Prop
  | nil {offset : ℕ} {rest : List Char} : Splits offset [] rest []
  | blank {offset : ℕ} {c : Char} {front rest : List Char} {found : List Located}
      (hc : Text.isBlank c = true) (h : Splits (offset + c.utf8Size) front rest found) :
      Splits offset (c :: front) rest found
  | lexeme {offset : ℕ} {w front rest : List Char} {t : Token} {found : List Located}
      (hw : IsLongest w t (w ++ (front ++ rest)))
      (h : Splits (offset + Text.byteLength w) front rest found) :
      Splits offset (w ++ front) rest (⟨t, offset⟩ :: found)

/-- The offsets of tokens, and behind them that of the end. -/
def offsets (found : List Located) (stop : ℕ) : List ℕ :=
  found.map Located.offset ++ [stop]

variable {offset : ℕ} {c : Char} {cs front rest w : List Char} {t : Token} {found : List Located}
  {e : ExprError}

/-! ## Scanning follows the split -/

/-- Scanning emits the longest lexeme and goes on behind it. -/
theorem scanFrom_of_isLongest (h : IsLongest w t (w ++ cs)) :
    scanFrom 0 offset (w ++ cs) =
      (scanFrom 0 (offset + Text.byteLength w) cs).map (⟨t, offset⟩ :: ·) := by
  obtain ⟨c, v, rfl⟩ := h.spells.exists_cons
  have hblank : Text.isBlank c = false := h.spells.not_isBlank c List.mem_cons_self
  have hfound : lexeme offset c (v ++ cs) = .ok (t, v.length + 1) :=
    (lexeme_eq_ok_iff hblank).mpr ⟨c :: v, h, rfl⟩
  rw [List.cons_append, scanFrom, if_neg (by rw [hblank]; decide), hfound]
  dsimp only
  rw [Nat.add_sub_cancel, scanFrom_skip, List.take_left, List.drop_left, Text.byteLength_cons,
    Nat.add_assoc]
  cases scanFrom 0 (offset + (c.utf8Size + Text.byteLength v)) cs <;> rfl

theorem scanFrom_of_isBlank (hc : Text.isBlank c = true) :
    scanFrom 0 offset (c :: cs) = scanFrom 0 (offset + c.utf8Size) cs := by
  rw [scanFrom, if_pos hc]

/-- Where there is neither a blank nor a lexeme, scanning stops and tells why. -/
theorem scanFrom_of_misfit (h : Misfit offset cs e) : scanFrom 0 offset cs = .error e := by
  obtain ⟨c, ds, rfl, hblank⟩ := h.exists_cons
  have hmissed : lexeme offset c ds = .error e := (lexeme_eq_error_iff hblank).mpr h
  rw [scanFrom, if_neg (by rw [hblank]; decide), hmissed]

/-- Scanning finds the tokens of the front, and goes on with the rest. -/
theorem Splits.scanFrom_eq (h : Splits offset front rest found) :
    scanFrom 0 offset (front ++ rest) =
      (scanFrom 0 (offset + Text.byteLength front) rest).map (found ++ ·) := by
  induction h with
  | @nil offset rest =>
    rw [List.nil_append, Text.byteLength_nil, Nat.add_zero]
    cases scanFrom 0 offset rest <;> rfl
  | @blank offset c front rest found hc _ ih =>
    rw [List.cons_append, scanFrom_of_isBlank hc, ih, Text.byteLength_cons, Nat.add_assoc]
  | @lexeme offset w front rest t found hw _ ih =>
    rw [List.append_assoc, scanFrom_of_isLongest hw, ih, Text.byteLength_append, Nat.add_assoc]
    cases scanFrom 0 (offset + (Text.byteLength w + Text.byteLength front)) rest <;> rfl

/-- Every text splits, up to its end or up to a place where nothing fits. -/
theorem exists_splits (offset : ℕ) (cs : List Char) :
    (∃ found, Splits offset cs [] found) ∨
    ∃ front rest found e, cs = front ++ rest ∧ Splits offset front rest found ∧
      Misfit (offset + Text.byteLength front) rest e := by
  -- the recursion passes over whole lexemes, so it is on the length of what is left
  induction hlength : cs.length using Nat.strongRecOn generalizing offset cs with
  | ind n ih =>
    subst hlength
    cases cs with
    | nil => exact Or.inl ⟨[], .nil⟩
    | cons c cs =>
      cases hblank : Text.isBlank c with
      | true =>
        obtain ⟨found, h⟩ | ⟨front, rest, found, e, rfl, h, he⟩ :=
          ih cs.length (Nat.lt_succ_self _) (offset + c.utf8Size) cs rfl
        · exact Or.inl ⟨found, .blank hblank h⟩
        · refine Or.inr ⟨c :: front, rest, found, e, rfl, .blank hblank h, ?_⟩
          rwa [Text.byteLength_cons, ← Nat.add_assoc]
      | false =>
        cases hfound : lexeme offset c cs with
        | error e =>
          exact Or.inr ⟨[], c :: cs, [], e, rfl, .nil, (lexeme_eq_error_iff hblank).mp hfound⟩
        | ok read =>
          obtain ⟨t, width⟩ := read
          obtain ⟨w, hw, -⟩ := (lexeme_eq_ok_iff hblank).mp hfound
          obtain ⟨tail, htail⟩ := hw.begins
          have hshorter : tail.length < (c :: cs).length := by
            obtain ⟨d, v, rfl⟩ := hw.spells.exists_cons
            rw [← htail, List.length_append, List.length_cons]
            omega
          rw [← htail] at hw ⊢
          obtain ⟨found, h⟩ | ⟨front, rest, found, e, rfl, h, he⟩ :=
            ih tail.length hshorter (offset + Text.byteLength w) tail rfl
          · exact Or.inl ⟨_, .lexeme (by rwa [List.append_nil]) h⟩
          · refine Or.inr ⟨w ++ front, rest, _, e, (List.append_assoc _ _ _).symm, .lexeme hw h, ?_⟩
            rwa [Text.byteLength_append, ← Nat.add_assoc]

/-- Scanning succeeds where the whole text splits. -/
theorem scanFrom_eq_ok_iff : scanFrom 0 offset cs = .ok found ↔ Splits offset cs [] found := by
  have hok : ∀ {found}, Splits offset cs [] found → scanFrom 0 offset cs = .ok found := by
    intro found h
    have heq := h.scanFrom_eq
    rw [scanFrom_nil, List.append_nil] at heq
    rw [heq, Except.map, List.append_nil]
  refine ⟨fun h => ?_, hok⟩
  obtain ⟨found', h'⟩ | ⟨front, rest, found', e, rfl, hfront, he⟩ := exists_splits offset cs
  · rw [hok h'] at h
    cases h
    exact h'
  · rw [hfront.scanFrom_eq, scanFrom_of_misfit he] at h
    cases h

/-- Scanning fails where the split comes to a place at which nothing fits. -/
theorem scanFrom_eq_error_iff :
    scanFrom 0 offset cs = .error e ↔
      ∃ front rest found, cs = front ++ rest ∧ Splits offset front rest found ∧
        Misfit (offset + Text.byteLength front) rest e := by
  constructor
  · intro h
    obtain ⟨found, hwhole⟩ | ⟨front, rest, found, e', rfl, hfront, he⟩ := exists_splits offset cs
    · rw [scanFrom_eq_ok_iff.mpr hwhole] at h
      cases h
    · rw [hfront.scanFrom_eq, scanFrom_of_misfit he] at h
      cases h
      exact ⟨front, rest, found, rfl, hfront, he⟩
  · rintro ⟨front, rest, found, rfl, hfront, he⟩
    rw [hfront.scanFrom_eq, scanFrom_of_misfit he]
    rfl

/-! ## Marks and the variable -/

namespace Splits

theorem mark (hmark : (c, t) ∈ punctuation) (hstar : c ≠ '*')
    (h : Splits (offset + 1) front rest found) :
    Splits offset (c :: front) rest (⟨t, offset⟩ :: found) := by
  have hsize : Text.byteLength [c] = 1 := by
    rw [Text.byteLength_cons, Text.byteLength_nil,
      utf8Size_of_inAlphabet (inAlphabet_of_mem_punctuation hmark)]
  exact .lexeme (w := [c]) (isLongest_mark hmark fun hc => absurd hc hstar) (by rwa [hsize])

/-- The variable is a name of its own where no longer name begins with it. -/
theorem var (hend : (front ++ rest).takeWhile continuesIdent = [])
    (h : Splits (offset + 1) front rest found) :
    Splits offset ('x' :: front) rest (⟨.ident "x", offset⟩ :: found) := by
  have hlongest : IsLongest ['x'] (.ident "x") ('x' :: (front ++ rest)) := by
    have hname : IsLongest ('x' :: (front ++ rest).takeWhile continuesIdent)
        (.ident (String.ofList ('x' :: (front ++ rest).takeWhile continuesIdent)))
        ('x' :: (front ++ rest)) := isLongest_name rfl
    rwa [hend] at hname
  exact .lexeme (w := ['x']) hlongest h

end Splits

/-! ## What has been split -/

namespace Splits

/-- What has been split is blank or in the alphabet. -/
theorem isBlank_or_inAlphabet (h : Splits offset front rest found) :
    ∀ c ∈ front, Text.isBlank c = true ∨ inAlphabet c = true := by
  induction h with
  | nil => exact fun _ h => absurd h List.not_mem_nil
  | blank hc _ ih => exact List.forall_mem_cons.mpr ⟨Or.inl hc, ih⟩
  | lexeme hw _ ih =>
    intro c hc
    rcases List.mem_append.mp hc with hc | hc
    · exact Or.inr (hw.spells.inAlphabet c hc)
    · exact ih c hc

theorem le_of_mem_offsets (h : Splits offset front rest found) :
    ∀ p ∈ offsets found (offset + Text.byteLength front), offset ≤ p := by
  induction h with
  | nil =>
    intro p hp
    rw [List.mem_singleton.mp hp]
    exact Nat.le_add_right _ _
  | blank _ _ ih =>
    intro p hp
    rw [Text.byteLength_cons, ← Nat.add_assoc] at hp
    exact Nat.le_trans (Nat.le_add_right _ _) (ih p hp)
  | lexeme _ _ ih =>
    intro p hp
    rw [Text.byteLength_append, ← Nat.add_assoc] at hp
    rcases List.mem_cons.mp hp with rfl | hp
    · exact Nat.le_refl _
    · exact Nat.le_trans (Nat.le_add_right _ _) (ih p hp)

/-- Each token stands before the next, and before the end. -/
theorem pairwise_offsets (h : Splits offset front rest found) :
    (offsets found (offset + Text.byteLength front)).Pairwise (· < ·) := by
  induction h with
  | nil => exact List.pairwise_singleton _ _
  | blank _ _ ih =>
    rw [Text.byteLength_cons, ← Nat.add_assoc]
    exact ih
  | @lexeme offset w front rest t found hw h ih =>
    rw [Text.byteLength_append, ← Nat.add_assoc]
    refine List.pairwise_cons.mpr ⟨fun p hp => ?_, ih⟩
    have hle : offset + Text.byteLength w ≤ p := h.le_of_mem_offsets p hp
    obtain ⟨c, v, rfl⟩ := hw.spells.exists_cons
    have hpos := c.utf8Size_pos
    rw [Text.byteLength_cons] at hle
    show offset < p
    omega

end Splits
end Token
end Plotting
