import Mathlib
import Plotting.Proofs.Json.Members
import Plotting.Proofs.Json.Printable

/-!
# Free-form values

What other programs hold as a JSON value is a free-form value: its members are in the order of their
keys, no key is repeated, and its numbers are finite doubles or whole numbers of 64 bits.
`Json.IsFreeForm` adds a bound on how many containers are nested in one another.

Free-form values are exactly those that survive being written and taken in again.  One that is
written is taken in as itself, because its members are in order already (`Json.IsFreeForm.toJson?`).
And whatever is taken in from a document with readable numbers is free-form, because taking in an
object puts its members in order (`Document.isFreeForm_of_toJson?`).
-/

namespace Plotting
namespace Json

/-! ## Members in order -/

/-- The keys are in order, and none is repeated. -/
def Ordered (members : List (String × Json)) : Prop :=
  members.Pairwise fun m n => m.1 < n.1

theorem ordered_iff {members : List (String × Json)} :
    Ordered members ↔ (keys members).Pairwise (· < ·) :=
  List.pairwise_map.symm

/-- Members whose names are among some in order. -/
theorem Ordered.of_sublist {members : List (String × Json)} (names : List String)
    (h : (keys members).Sublist names) (hnames : names.Pairwise (· < ·)) : Ordered members :=
  ordered_iff.mpr (hnames.sublist h)

theorem Ordered.nodup_keys {members : List (String × Json)} (h : Ordered members) :
    (keys members).Nodup :=
  (ordered_iff.mp h).imp ne_of_lt

theorem mem_place {key : String} {value : Json} {members : List (String × Json)}
    {m : String × Json} (h : m ∈ place key value members) : m = (key, value) ∨ m ∈ members := by
  induction members with
  | nil => exact Or.inl (List.mem_singleton.mp h)
  | cons n ns ih =>
    rw [place] at h
    split at h
    · exact List.mem_cons.mp h
    · split at h
      · exact Or.inr h
      · rcases List.mem_cons.mp h with rfl | h
        · exact Or.inr List.mem_cons_self
        · exact (ih h).imp_right (List.mem_cons_of_mem n)

/-- A member is put in its place. -/
theorem Ordered.place {members : List (String × Json)} (h : Ordered members) (key : String)
    (value : Json) : Ordered (place key value members) := by
  induction members with
  | nil => exact List.pairwise_singleton _ _
  | cons n ns ih =>
    obtain ⟨hn, hns⟩ := List.pairwise_cons.mp h
    rw [Json.place]
    split
    · next hlt =>
      refine List.pairwise_cons.mpr ⟨fun m hm => ?_, h⟩
      rcases List.mem_cons.mp hm with rfl | hm
      · exact hlt
      · exact lt_trans hlt (hn m hm)
    · next hle =>
      split
      · exact h
      · next hne =>
        have hgt : n.1 < key := lt_of_le_of_ne (not_lt.mp hle) (Ne.symm hne)
        refine List.pairwise_cons.mpr ⟨fun m hm => ?_, ih hns⟩
        rcases mem_place hm with rfl | hm
        · exact hgt
        · exact hn m hm

theorem ordered_sorted (members : List (String × Json)) : Ordered (sorted members) := by
  induction members with
  | nil => exact List.Pairwise.nil
  | cons m ms ih => exact ih.place m.1 m.2

theorem mem_of_mem_sorted {members : List (String × Json)} {m : String × Json}
    (h : m ∈ sorted members) : m ∈ members := by
  induction members with
  | nil => exact h
  | cons n ns ih =>
    rcases mem_place h with rfl | h
    · exact List.mem_cons_self
    · exact List.mem_cons_of_mem n (ih h)

/-! ## Free-form values -/

mutual

/-- The value is free-form, with at most `levels` containers nested in one another. -/
def IsFreeForm : ℕ → Json → Prop
  | _, .null | _, .bool _ | _, .str _ => True
  | _, .int n => -2 ^ 63 ≤ n ∧ n < 2 ^ 64
  | _, .float x => x.isFinite = true
  | 0, .arr _ | 0, .obj _ => False
  | levels + 1, .arr items => ItemsFreeForm levels items
  | levels + 1, .obj members => Ordered members ∧ MembersFreeForm levels members

/-- Every item is free-form. -/
def ItemsFreeForm : ℕ → List Json → Prop
  | _, [] => True
  | levels, j :: js => IsFreeForm levels j ∧ ItemsFreeForm levels js

/-- The value of every member is free-form. -/
def MembersFreeForm : ℕ → List (String × Json) → Prop
  | _, [] => True
  | levels, (_, j) :: ms => IsFreeForm levels j ∧ MembersFreeForm levels ms

end

variable {levels : ℕ}

theorem itemsFreeForm_iff {items : List Json} :
    ItemsFreeForm levels items ↔ ∀ j ∈ items, j.IsFreeForm levels := by
  induction items with
  | nil => simp [ItemsFreeForm]
  | cons j js ih => rw [ItemsFreeForm, ih, List.forall_mem_cons]

theorem membersFreeForm_iff {members : List (String × Json)} :
    MembersFreeForm levels members ↔ ∀ m ∈ members, m.2.IsFreeForm levels := by
  induction members with
  | nil => simp [MembersFreeForm]
  | cons m ms ih => rw [MembersFreeForm, ih, List.forall_mem_cons]

/-! ### Written values -/

section Written
variable {α : Type} {key : String} {encode : α → Json}

theorem isFreeForm_null : IsFreeForm levels .null := by
  rw [IsFreeForm]
  trivial

theorem isFreeForm_str (s : String) : IsFreeForm levels (.str s) := by
  rw [IsFreeForm]
  trivial

theorem isFreeForm_ofFloat (x : Float) : IsFreeForm levels (.ofFloat x) := by
  unfold ofFloat
  split
  · next h => rwa [IsFreeForm]
  · exact isFreeForm_null

theorem isFreeForm_arr {items : List Json} (h : ∀ j ∈ items, j.IsFreeForm levels) :
    IsFreeForm (levels + 1) (.arr items) := by
  rw [IsFreeForm]
  exact itemsFreeForm_iff.mpr h

theorem isFreeForm_obj {members : List (String × Json)} (hkeys : Ordered members)
    (h : ∀ m ∈ members, m.2.IsFreeForm levels) : IsFreeForm (levels + 1) (.obj members) := by
  rw [IsFreeForm]
  exact ⟨hkeys, membersFreeForm_iff.mpr h⟩

theorem isFreeForm_list {as : List α} (h : ∀ a ∈ as, (encode a).IsFreeForm levels) :
    IsFreeForm (levels + 1) (list encode as) := by
  refine isFreeForm_arr fun j hj => ?_
  obtain ⟨a, ha, rfl⟩ := List.mem_map.mp hj
  exact h a ha

theorem isFreeForm_floats (values : List Float) :
    IsFreeForm (levels + 1) (list .ofFloat values) :=
  isFreeForm_list fun v _ => isFreeForm_ofFloat v

theorem isFreeForm_optional {a : Option α} (h : ∀ b ∈ a, (encode b).IsFreeForm levels) :
    ∀ m ∈ optional key encode a, m.2.IsFreeForm levels := by
  cases a with
  | none => exact List.forall_mem_nil _
  | some b => exact fun m hm => List.mem_singleton.mp hm ▸ h b rfl

theorem isFreeForm_nonempty {as : List α} (h : ∀ a ∈ as, (encode a).IsFreeForm levels) :
    ∀ m ∈ nonempty key encode as, m.2.IsFreeForm (levels + 1) := by
  cases as with
  | nil => exact List.forall_mem_nil _
  | cons a as => exact fun m hm => List.mem_singleton.mp hm ▸ isFreeForm_list h

theorem isFreeForm_text (s : Option String) :
    ∀ m ∈ optional key .str s, m.2.IsFreeForm levels :=
  isFreeForm_optional fun s _ => isFreeForm_str s

theorem isFreeForm_number (x : Option Float) :
    ∀ m ∈ optional key .ofFloat x, m.2.IsFreeForm levels :=
  isFreeForm_optional fun x _ => isFreeForm_ofFloat x

end Written

/-! ### Free-form values have texts -/

mutual

theorem IsFreeForm.isPrintable : ∀ {levels : ℕ} {j : Json}, j.IsFreeForm levels → j.IsPrintable
  | _, .null, _ | _, .bool _, _ | _, .str _, _ => trivial
  | _, .int _, h | _, .float _, h => by rwa [IsFreeForm] at h
  | 0, .arr _, h | 0, .obj _, h => by
    rw [IsFreeForm] at h
    exact h.elim
  | _ + 1, .arr _, h => by
    rw [IsFreeForm] at h
    exact itemsPrintable_of_freeForm h
  | _ + 1, .obj _, h => by
    rw [IsFreeForm] at h
    exact membersPrintable_of_freeForm h.2

theorem itemsPrintable_of_freeForm : ∀ {levels : ℕ} {items : List Json},
    ItemsFreeForm levels items → ItemsPrintable items
  | _, [], _ => trivial
  | _, _ :: _, h => by
    rw [ItemsFreeForm] at h
    exact ⟨h.1.isPrintable, itemsPrintable_of_freeForm h.2⟩

theorem membersPrintable_of_freeForm : ∀ {levels : ℕ} {members : List (String × Json)},
    MembersFreeForm levels members → MembersPrintable members
  | _, [], _ => trivial
  | _, _ :: _, h => by
    rw [MembersFreeForm] at h
    exact ⟨h.1.isPrintable, membersPrintable_of_freeForm h.2⟩

end

/-! ### More levels -/

mutual

/-- What fits a bound fits a larger one. -/
theorem IsFreeForm.mono : ∀ {levels more : ℕ} {j : Json}, levels ≤ more → j.IsFreeForm levels →
    j.IsFreeForm more
  | _, _, .null, _, _ | _, _, .bool _, _, _ | _, _, .str _, _, _ => by
    rw [IsFreeForm]
    trivial
  | _, _, .int _, _, h | _, _, .float _, _, h => by rwa [IsFreeForm] at h ⊢
  | 0, _, .arr _, _, h | 0, _, .obj _, _, h => by
    rw [IsFreeForm] at h
    exact h.elim
  | levels + 1, 0, _, hle, _ => absurd hle (Nat.not_succ_le_zero levels)
  | _ + 1, _ + 1, .arr _, hle, h => by
    rw [IsFreeForm] at h ⊢
    exact itemsFreeForm_mono (Nat.le_of_succ_le_succ hle) h
  | _ + 1, _ + 1, .obj _, hle, h => by
    rw [IsFreeForm] at h ⊢
    exact ⟨h.1, membersFreeForm_mono (Nat.le_of_succ_le_succ hle) h.2⟩

theorem itemsFreeForm_mono : ∀ {levels more : ℕ} {items : List Json}, levels ≤ more →
    ItemsFreeForm levels items → ItemsFreeForm more items
  | _, _, [], _, _ => by
    rw [ItemsFreeForm]
    trivial
  | _, _, _ :: _, hle, h => by
    rw [ItemsFreeForm] at h ⊢
    exact ⟨h.1.mono hle, itemsFreeForm_mono hle h.2⟩

theorem membersFreeForm_mono : ∀ {levels more : ℕ} {members : List (String × Json)},
    levels ≤ more → MembersFreeForm levels members → MembersFreeForm more members
  | _, _, [], _, _ => by
    rw [MembersFreeForm]
    trivial
  | _, _, _ :: _, hle, h => by
    rw [MembersFreeForm] at h ⊢
    exact ⟨h.1.mono hle, membersFreeForm_mono hle h.2⟩

end

end Json

namespace Document

open Json (IsFreeForm ItemsFreeForm MembersFreeForm)

/-! ## Taking in what was written -/

mutual

/-- A free-form value is taken in as itself. -/
theorem toJson?_ofJson : ∀ {levels : ℕ} {j : Json}, j.IsFreeForm levels →
    toJson? levels (ofJson j) = some j
  | _, .null, _ | _, .bool _, _ | _, .str _, _ | _, .int _, _ | _, .float _, _ => by
    rw [ofJson, toJson?]
  | 0, .arr _, h | 0, .obj _, h => by
    rw [IsFreeForm] at h
    exact h.elim
  | _ + 1, .arr _, h => by
    rw [IsFreeForm] at h
    rw [ofJson, toJson?, toItems?_ofItems h, Option.map_some]
  | _ + 1, .obj _, h => by
    rw [IsFreeForm] at h
    rw [ofJson, toJson?, toMembers?_ofMembers h.2, Option.map_some, Json.sorted_eq_self h.1]

theorem toItems?_ofItems : ∀ {levels : ℕ} {items : List Json}, ItemsFreeForm levels items →
    toItems? levels (ofItems items) = some items
  | _, [], _ => by rw [ofItems, toItems?]
  | _, _ :: _, h => by
    rw [ItemsFreeForm] at h
    rw [ofItems, toItems?, toJson?_ofJson h.1, toItems?_ofItems h.2]

theorem toMembers?_ofMembers : ∀ {levels : ℕ} {members : List (String × Json)},
    MembersFreeForm levels members → toMembers? levels (ofMembers members) = some members
  | _, [], _ => by rw [ofMembers, toMembers?]
  | _, (_, _) :: _, h => by
    rw [MembersFreeForm] at h
    rw [ofMembers, toMembers?, toJson?_ofJson h.1, toMembers?_ofMembers h.2]

end

/-! ## What is taken in -/

mutual

/-- Every number is a finite double or a whole number of 64 bits. -/
def IsReadable : Document → Prop
  | .null | .bool _ | .str _ | .unreadable => True
  | .int n => -2 ^ 63 ≤ n ∧ n < 2 ^ 64
  | .float x => x.isFinite = true
  | .arr items => ItemsReadable items
  | .obj members => MembersReadable members

/-- Every item is readable. -/
def ItemsReadable : List Document → Prop
  | [] => True
  | d :: ds => IsReadable d ∧ ItemsReadable ds

/-- The value of every member is readable. -/
def MembersReadable : List (String × Document) → Prop
  | [] => True
  | (_, d) :: ms => IsReadable d ∧ MembersReadable ms

end

mutual

/-- What is taken in from a readable document is free-form. -/
theorem isFreeForm_of_toJson? : ∀ {levels : ℕ} {d : Document} {j : Json}, d.IsReadable →
    toJson? levels d = some j → j.IsFreeForm levels
  | _, .null, _, _, h | _, .bool _, _, _, h | _, .str _, _, _, h => by
    rw [toJson?] at h
    obtain rfl := Option.some.inj h
    rw [IsFreeForm]
    trivial
  | _, .int _, _, hd, h | _, .float _, _, hd, h => by
    rw [toJson?] at h
    obtain rfl := Option.some.inj h
    rwa [IsReadable] at hd
  | _, .unreadable, _, _, h | 0, .arr _, _, _, h | 0, .obj _, _, _, h => by
    rw [toJson?] at h
    cases h
  | _ + 1, .arr _, _, hd, h => by
    rw [toJson?] at h
    obtain ⟨js, hjs, rfl⟩ := Option.map_eq_some_iff.mp h
    rw [IsReadable] at hd
    exact Json.isFreeForm_arr (freeForm_of_toItems? hd hjs)
  | _ + 1, .obj _, _, hd, h => by
    rw [toJson?] at h
    obtain ⟨ms, hms, rfl⟩ := Option.map_eq_some_iff.mp h
    rw [IsReadable] at hd
    refine Json.isFreeForm_obj (Json.ordered_sorted ms) fun m hm => ?_
    exact freeForm_of_toMembers? hd hms m (Json.mem_of_mem_sorted hm)

theorem freeForm_of_toItems? : ∀ {levels : ℕ} {ds : List Document} {js : List Json},
    ItemsReadable ds → toItems? levels ds = some js → ∀ j ∈ js, j.IsFreeForm levels
  | _, [], _, _, h => by
    rw [toItems?] at h
    obtain rfl := Option.some.inj h
    exact List.forall_mem_nil _
  | _, _ :: _, _, hd, h => by
    rw [toItems?] at h
    split at h
    · next j js hj hjs =>
      obtain rfl := Option.some.inj h
      rw [ItemsReadable] at hd
      exact List.forall_mem_cons.mpr
        ⟨isFreeForm_of_toJson? hd.1 hj, freeForm_of_toItems? hd.2 hjs⟩
    · cases h

theorem freeForm_of_toMembers? : ∀ {levels : ℕ} {ms : List (String × Document)}
    {js : List (String × Json)}, MembersReadable ms → toMembers? levels ms = some js →
    ∀ m ∈ js, m.2.IsFreeForm levels
  | _, [], _, _, h => by
    rw [toMembers?] at h
    obtain rfl := Option.some.inj h
    exact List.forall_mem_nil _
  | _, (_, _) :: _, _, hd, h => by
    rw [toMembers?] at h
    split at h
    · next j js hj hjs =>
      obtain rfl := Option.some.inj h
      rw [MembersReadable] at hd
      exact List.forall_mem_cons.mpr
        ⟨isFreeForm_of_toJson? hd.1 hj, freeForm_of_toMembers? hd.2 hjs⟩
    · cases h

end

end Document
end Plotting
