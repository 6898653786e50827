import Plotting.Proofs.Json.Numbers

/-!
# Printable values

Not every value has a text that spells it: a number past the largest double is printed as a word,
and a whole number of more than 64 bits would be read as a double.  Values that are written member
by member are printable because their parts are; a double is written as null when it is not finite,
so it always is.

A printable value is read back from its text by a reader that keeps its numbers
(`NumberReader.KeepsAll`).  That is a condition on the numbers that stand in the value, and not on
the reader alone.  The reader that takes the nearest double meets it for every value
(`keepsAll_nearest`), and the one in a hurry for values whose numbers are short
(`keepsAll_bestEffort_of_isShort`).
-/

namespace Plotting
namespace Json

mutual

/-- Every number of the value has a text that spells it: a double is finite, and a
whole number has 64 bits. -/
@[simp]
def IsPrintable : Json → Prop
  | .null | .bool _ | .str _ => True
  | .int n => -2 ^ 63 ≤ n ∧ n < 2 ^ 64
  | .float x => x.isFinite = true
  | .arr items => ItemsPrintable items
  | .obj members => MembersPrintable members

/-- Every item is printable. -/
@[simp]
def ItemsPrintable : List Json → Prop
  | [] => True
  | j :: js => j.IsPrintable ∧ ItemsPrintable js

/-- The value of every member is printable. -/
@[simp]
def MembersPrintable : List (String × Json) → Prop
  | [] => True
  | (_, j) :: ms => j.IsPrintable ∧ MembersPrintable ms

end

/-! ## Numbers -/

/-- What is not finite is written as null. -/
@[simp] theorem isPrintable_ofFloat (x : Float) : (ofFloat x).IsPrintable := by
  rw [ofFloat]
  split
  · next h => rwa [IsPrintable]
  · trivial

@[simp] theorem isPrintable_ofNat_word (w : UInt32) : (ofNat w.toNat).IsPrintable := by
  have hword := w.toNat_lt
  rw [ofNat, IsPrintable]
  omega

/-! ## Lists and members -/

section Members
variable {α : Type} {key : String} {encode : α → Json}

@[simp] theorem isPrintable_list (as : List α) :
    (list encode as).IsPrintable ↔ ∀ a ∈ as, (encode a).IsPrintable := by
  rw [list, IsPrintable]
  induction as with
  | nil => simp
  | cons a as ih => rw [List.map_cons, ItemsPrintable, ih, List.forall_mem_cons]

theorem membersPrintable_iff (ms : List (String × Json)) :
    MembersPrintable ms ↔ ∀ m ∈ ms, m.2.IsPrintable := by
  induction ms with
  | nil => simp
  | cons m ms ih => rw [MembersPrintable, ih, List.forall_mem_cons]

@[simp] theorem membersPrintable_append (ms ns : List (String × Json)) :
    MembersPrintable (ms ++ ns) ↔ MembersPrintable ms ∧ MembersPrintable ns := by
  induction ms with
  | nil => simp
  | cons m ms ih => simp [ih, and_assoc]

@[simp] theorem membersPrintable_optional (a : Option α) :
    MembersPrintable (optional key encode a) ↔ ∀ b ∈ a, (encode b).IsPrintable := by
  cases a <;> simp [optional]

@[simp] theorem membersPrintable_nonempty (as : List α) :
    MembersPrintable (nonempty key encode as) ↔ ∀ a ∈ as, (encode a).IsPrintable := by
  cases as <;> simp [nonempty]

end Members

/-! ## Numbers that are kept -/

mutual

/-- The doubles that stand in a value. -/
def numbers : Json → List Float
  | .null | .bool _ | .int _ | .str _ => []
  | .float x => [x]
  | .arr items => itemsNumbers items
  | .obj members => membersNumbers members

/-- The doubles that stand in the items of an array. -/
def itemsNumbers : List Json → List Float
  | [] => []
  | j :: js => numbers j ++ itemsNumbers js

/-- The doubles that stand in the members of an object. -/
def membersNumbers : List (String × Json) → List Float
  | [] => []
  | (_, j) :: ms => numbers j ++ membersNumbers ms

end

theorem itemsNumbers_eq_flatMap (js : List Json) : itemsNumbers js = js.flatMap numbers := by
  induction js with
  | nil => rfl
  | cons j js ih => rw [itemsNumbers, ih, List.flatMap_cons]

theorem membersNumbers_eq_flatMap (ms : List (String × Json)) :
    membersNumbers ms = ms.flatMap fun m => m.2.numbers := by
  induction ms with
  | nil => rfl
  | cons m ms ih => rw [membersNumbers, ih, List.flatMap_cons]

mutual

/-- The doubles of a printable value are finite. -/
theorem isFinite_of_mem_numbers : ∀ {j : Json}, j.IsPrintable → ∀ x ∈ j.numbers, x.isFinite = true
  | .null, _ | .bool _, _ | .int _, _ | .str _, _ => List.forall_mem_nil _
  | .float _, h => by
    rw [IsPrintable] at h
    exact List.forall_mem_singleton.mpr h
  | .arr _, h => by
    rw [IsPrintable] at h
    exact isFinite_of_mem_itemsNumbers h
  | .obj _, h => by
    rw [IsPrintable] at h
    exact isFinite_of_mem_membersNumbers h

theorem isFinite_of_mem_itemsNumbers : ∀ {js : List Json}, ItemsPrintable js →
    ∀ x ∈ itemsNumbers js, x.isFinite = true
  | [], _ => List.forall_mem_nil _
  | _ :: _, h => by
    rw [ItemsPrintable] at h
    rw [itemsNumbers]
    exact List.forall_mem_append.mpr
      ⟨isFinite_of_mem_numbers h.1, isFinite_of_mem_itemsNumbers h.2⟩

theorem isFinite_of_mem_membersNumbers : ∀ {ms : List (String × Json)}, MembersPrintable ms →
    ∀ x ∈ membersNumbers ms, x.isFinite = true
  | [], _ => List.forall_mem_nil _
  | (_, _) :: _, h => by
    rw [MembersPrintable] at h
    rw [membersNumbers]
    exact List.forall_mem_append.mpr
      ⟨isFinite_of_mem_numbers h.1, isFinite_of_mem_membersNumbers h.2⟩

end

end Json

/-- The reader keeps every double that stands in a value. -/
def NumberReader.KeepsAll (reader : NumberReader) (j : Json) : Prop :=
  ∀ x ∈ j.numbers, reader.Keeps x

instance (reader : NumberReader) (j : Json) : Decidable (reader.KeepsAll j) :=
  inferInstanceAs (Decidable (∀ x ∈ _, _))

namespace NumberReader
variable {reader : NumberReader}

@[simp] theorem keepsAll_arr (items : List Json) :
    reader.KeepsAll (.arr items) ↔ ∀ i ∈ items, reader.KeepsAll i := by
  simp only [KeepsAll, Json.numbers, Json.itemsNumbers_eq_flatMap, List.mem_flatMap,
    forall_exists_index, and_imp]
  exact ⟨fun h i hi x hx => h x i hi hx, fun h x i hi hx => h i hi x hx⟩

@[simp] theorem keepsAll_obj (members : List (String × Json)) :
    reader.KeepsAll (.obj members) ↔ ∀ m ∈ members, reader.KeepsAll m.2 := by
  simp only [KeepsAll, Json.numbers, Json.membersNumbers_eq_flatMap, List.mem_flatMap,
    forall_exists_index, and_imp]
  exact ⟨fun h m hm x hx => h x m hm hx, fun h x m hm hx => h m hm x hx⟩

@[simp] theorem keepsAll_ofNat (n : ℕ) : reader.KeepsAll (.ofNat n) :=
  List.forall_mem_nil _

theorem keepsAll_float {x : Float} : reader.KeepsAll (.float x) ↔ reader.Keeps x :=
  List.forall_mem_singleton

/-- The reader that takes the nearest double keeps whatever can be printed. -/
theorem keepsAll_nearest {j : Json} (h : j.IsPrintable) : nearest.KeepsAll j :=
  fun x hx => keeps_nearest (Json.isFinite_of_mem_numbers h x hx)

/-- The reader in a hurry keeps what can be printed with short numerals. -/
theorem keepsAll_bestEffort_of_isShort {j : Json} (h : j.IsPrintable)
    (hshort : ∀ x ∈ j.numbers, (jsonNumber.numeral x).written.IsShort) : bestEffort.KeepsAll j :=
  fun x hx => keeps_bestEffort_of_isShort (Json.isFinite_of_mem_numbers h x hx) (hshort x hx)

end NumberReader

namespace Json

/-! ## The first character -/

variable {j : Json}

/-- A value begins with a character that is no blank and closes nothing. -/
theorem exists_first_print (h : j.IsPrintable) (spacing : Spacing) (depth : ℕ) :
    ∃ c cs, print spacing depth j = c :: cs ∧ Document.isBlank c = false ∧ c ≠ ']' := by
  have hnumber : ∀ c : Char, c.isDigit = true ∨ c = '-' → Document.isBlank c = false ∧ c ≠ ']' := by
    intro c hc
    have hne : c ≠ ' ' ∧ c ≠ '\t' ∧ c ≠ '\n' ∧ c ≠ '\r' ∧ c ≠ ']' := by
      rcases hc with hc | rfl
      · refine ⟨?_, ?_, ?_, ?_, ?_⟩ <;> rintro rfl <;> cases hc
      · decide
    simp [Document.isBlank, hne]
  cases j with
  | null => exact ⟨_, _, rfl, by decide, by decide⟩
  | bool b => cases b <;> exact ⟨_, _, rfl, by decide, by decide⟩
  | int n =>
    obtain ⟨c, cs, hfirst, hc⟩ := Document.exists_first_printInt n
    exact ⟨c, cs, by rw [print, hfirst], hnumber c hc⟩
  | float x =>
    rw [IsPrintable] at h
    obtain ⟨c, cs, hfirst, hc⟩ := Document.exists_first_write h
    exact ⟨c, cs, by rw [print, hfirst], hnumber c hc⟩
  | str s => exact ⟨'"', _, by rw [print, printString], by decide, by decide⟩
  | arr items => cases items <;> exact ⟨'[', _, by rw [print], by decide, by decide⟩
  | obj members =>
    cases members with
    | nil => exact ⟨'{', _, by rw [print], by decide, by decide⟩
    | cons m ms => exact ⟨'{', _, by rw [print], by decide, by decide⟩

end Json
end Plotting
