import Mathlib.Data.Nat.Notation
import Plotting.Proofs.Expr.Splitting

/-!
# Blanks between words

The words of a text are what stands between its blanks.  A lexeme holds no blank, and so neither how
long it is nor what may be wrong in its place depends on anything past the next blank.  A text
therefore has the tokens of its words, one word after the other (`kindsFrom_eq_words`), and what
blanks stand between the words, and how many, shows in the offsets alone.
-/

namespace Plotting
namespace Token

/-- The longest pieces of a text that hold no blank. -/
def words (cs : List Char) : List (List Char) :=
  (cs.splitOnP Text.isBlank).filter (· ≠ [])

/-- The tokens of a text that stands at the offset, without their places. -/
def kindsFrom (offset : ℕ) (cs : List Char) : Option (List Token) :=
  (scanFrom 0 offset cs).toOption.map (List.map Located.token)

/-- The tokens of a text, without their places. -/
def kinds? (text : String) : Option (List Token) :=
  (scan text).toOption.map (List.map Located.token)

variable {offset : ℕ} {b : Char} {xs ys front rest w : List Char} {t : Token}
  {found : List Located} {e : ExprError}

/-! ## A blank ends what stands before it -/

/-- What holds no blank is not in front of more than what comes before a blank. -/
theorem begins_append_blank_iff (hb : Text.isBlank b = true)
    (hw : ∀ c ∈ w, Text.isBlank c = false) : w <+: xs ++ b :: ys ↔ w <+: xs := by
  refine ⟨fun h => ?_, fun h => h.trans (List.prefix_append _ _)⟩
  induction w generalizing xs with
  | nil => exact List.nil_prefix
  | cons c w ih =>
    obtain ⟨hc, hw⟩ := List.forall_mem_cons.mp hw
    cases xs with
    | nil =>
      obtain ⟨rfl, -⟩ := List.cons_prefix_cons.mp h
      rw [hb] at hc
      cases hc
    | cons x xs =>
      obtain ⟨rfl, htail⟩ := List.cons_prefix_cons.mp h
      exact List.cons_prefix_cons.mpr ⟨rfl, ih hw htail⟩

/-- The longest lexeme does not reach past a blank. -/
theorem isLongest_append_blank_iff (hb : Text.isBlank b = true) :
    IsLongest w t (xs ++ b :: ys) ↔ IsLongest w t xs := by
  constructor
  · intro h
    refine ⟨h.spells, (begins_append_blank_iff hb h.spells.not_isBlank).mp h.begins, ?_⟩
    intro w' t' hspells hw'
    exact h.longest w' t' hspells ((begins_append_blank_iff hb hspells.not_isBlank).mpr hw')
  · intro h
    refine ⟨h.spells, (begins_append_blank_iff hb h.spells.not_isBlank).mpr h.begins, ?_⟩
    intro w' t' hspells hw'
    exact h.longest w' t' hspells ((begins_append_blank_iff hb hspells.not_isBlank).mp hw')

/-- Nor does the reason why there is none. -/
theorem Misfit.append_blank (hb : Text.isBlank b = true) (h : Misfit offset xs e) (ys : List Char) :
    Misfit offset (xs ++ b :: ys) e := by
  have hblank : ∀ {m : Numeral}, m.WellFormed → ∀ c ∈ m.text, Text.isBlank c = false :=
    fun hm c hc => not_isBlank_of_inAlphabet (hm.inAlphabet c hc)
  cases h with
  | stranger hc halphabet => exact .stranger hc halphabet
  | digitless hn hpoint hdigit hbegins hlongest =>
    refine .digitless hn hpoint hdigit ((begins_append_blank_iff hb (hblank hn)).mpr hbegins) ?_
    intro m hm hm'
    exact hlongest m hm ((begins_append_blank_iff hb (hblank hm)).mp hm')

/-- What comes behind the split part may be changed where that leaves the longest lexemes. -/
theorem Splits.congr_rest {rest' : List Char} (h : Splits offset front rest found)
    (hrest : ∀ {w t xs}, IsLongest w t (xs ++ rest) → IsLongest w t (xs ++ rest')) :
    Splits offset front rest' found := by
  induction h with
  | nil => exact .nil
  | blank hc _ ih => exact .blank hc (ih hrest)
  | lexeme hw _ ih =>
    refine .lexeme ?_ (ih hrest)
    rw [← List.append_assoc] at hw ⊢
    exact hrest hw

/-! ## Tokens without their places -/

/-- A text splits in the same way at any other offset. -/
theorem Splits.shift (h : Splits offset front rest found) (offset' : ℕ) :
    ∃ found', Splits offset' front rest found' ∧
      found'.map Located.token = found.map Located.token := by
  induction h generalizing offset' with
  | nil => exact ⟨[], .nil, rfl⟩
  | blank hc _ ih =>
    obtain ⟨found', h', hkinds⟩ := ih _
    exact ⟨found', .blank hc h', hkinds⟩
  | lexeme hw _ ih =>
    obtain ⟨found', h', hkinds⟩ := ih _
    exact ⟨_, .lexeme hw h', congrArg (List.cons _) hkinds⟩

theorem kindsFrom_eq_some_iff {ts : List Token} :
    kindsFrom offset xs = some ts ↔
      ∃ found, Splits offset xs [] found ∧ found.map Located.token = ts := by
  rw [kindsFrom, Option.map_eq_some_iff]
  refine exists_congr fun found => and_congr_left fun _ => ?_
  rw [← scanFrom_eq_ok_iff]
  cases scanFrom 0 offset xs <;> simp [Except.toOption]

/-- The tokens do not depend on where the text stands. -/
theorem kindsFrom_congr (offset offset' : ℕ) (xs : List Char) :
    kindsFrom offset xs = kindsFrom offset' xs := by
  have hle : ∀ {o o' : ℕ} {ts}, kindsFrom o xs = some ts → kindsFrom o' xs = some ts := by
    intro o o' ts h
    obtain ⟨found, hsplits, rfl⟩ := kindsFrom_eq_some_iff.mp h
    exact kindsFrom_eq_some_iff.mpr (hsplits.shift o')
  exact Option.ext fun ts => ⟨hle, hle⟩

@[simp] theorem kindsFrom_nil (offset : ℕ) : kindsFrom offset [] = some [] := by
  rw [kindsFrom, scanFrom_nil]
  rfl

/-- On both sides of a blank the tokens are found apart. -/
theorem kindsFrom_append_blank (hb : Text.isBlank b = true) (offset : ℕ) (xs ys : List Char) :
    kindsFrom offset (xs ++ b :: ys) =
      (kindsFrom 0 xs).bind fun left => (kindsFrom 0 ys).map fun right => left ++ right := by
  rw [kindsFrom_congr offset 0]
  obtain ⟨found, hxs⟩ | ⟨front, rest, found, e, rfl, hfront, he⟩ := exists_splits 0 xs
  · have hwhole : Splits 0 xs (b :: ys) found := hxs.congr_rest fun h =>
      (isLongest_append_blank_iff hb).mpr (by rwa [List.append_nil] at h)
    have hleft : kindsFrom 0 xs = some (found.map Located.token) :=
      kindsFrom_eq_some_iff.mpr ⟨found, hxs, rfl⟩
    rw [hleft, Option.bind_some, kindsFrom, hwhole.scanFrom_eq, scanFrom_of_isBlank hb,
      kindsFrom_congr 0 (0 + Text.byteLength xs + b.utf8Size), kindsFrom]
    cases scanFrom 0 (0 + Text.byteLength xs + b.utf8Size) ys with
    | error e => rfl
    | ok more => simp [Except.map, Except.toOption]
  · have hfront' : Splits 0 front (rest ++ b :: ys) found := hfront.congr_rest fun h => by
      rw [← List.append_assoc]
      exact (isLongest_append_blank_iff hb).mpr h
    have hleft : kindsFrom 0 (front ++ rest) = none := by
      rw [kindsFrom, hfront.scanFrom_eq, scanFrom_of_misfit he]
      rfl
    rw [hleft, Option.bind_none, List.append_assoc, kindsFrom, hfront'.scanFrom_eq,
      scanFrom_of_misfit (he.append_blank hb ys)]
    rfl

/-! ## Words -/

theorem words_append_blank (hb : Text.isBlank b = true) (xs ys : List Char) :
    words (xs ++ b :: ys) = words xs ++ words ys := by
  rw [words, List.splitOnP_append_cons _ _ hb, List.filter_append]
  rfl

/-- A text without blanks is one word, or none if it is empty. -/
theorem words_of_not_isBlank (h : ∀ c ∈ xs, Text.isBlank c = false) :
    words xs = if xs = [] then [] else [xs] := by
  rw [words, List.splitOnP_eq_singleton h]
  by_cases hxs : xs = [] <;> simp [hxs]

/-- A text has the tokens of its words. -/
theorem kindsFrom_eq_words (offset : ℕ) (cs : List Char) :
    kindsFrom offset cs = ((words cs).mapM (kindsFrom 0)).map List.flatten := by
  -- at a blank both sides fall apart into those of two shorter texts
  induction hlength : cs.length using Nat.strongRecOn generalizing offset cs with
  | ind n ih =>
    subst hlength
    by_cases hblank : ∃ b ∈ cs, Text.isBlank b = true
    · obtain ⟨b, hmem, hb⟩ := hblank
      obtain ⟨xs, ys, rfl⟩ := List.append_of_mem hmem
      have hxs := ih xs.length (by simp) 0 xs rfl
      have hys := ih ys.length (by simp; omega) 0 ys rfl
      rw [kindsFrom_append_blank hb, hxs, hys, words_append_blank hb, List.mapM_append]
      cases (words xs).mapM (kindsFrom 0) with
      | none => rfl
      | some left =>
        cases (words ys).mapM (kindsFrom 0) with
        | none => rfl
        | some right => simp
    · have hnone : ∀ c ∈ cs, Text.isBlank c = false := by simpa using hblank
      rw [words_of_not_isBlank hnone]
      split
      · next hcs =>
        rw [hcs, kindsFrom_nil]
        rfl
      · rw [kindsFrom_congr offset 0, List.mapM_cons, List.mapM_nil]
        cases kindsFrom 0 cs <;> simp

/-- Texts with the same words have the same tokens, or neither of them has. -/
theorem kinds?_congr {text other : String} (h : words text.toList = words other.toList) :
    kinds? text = kinds? other := by
  show kindsFrom 0 text.toList = kindsFrom 0 other.toList
  rw [kindsFrom_eq_words, kindsFrom_eq_words, h]

end Token
end Plotting
