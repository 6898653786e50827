import Mathlib.Data.List.Forall2
import Plotting.Proofs.Json.Readable

/-!
# The values that documents spell

A document that is taken in as a free-form value loses what a value cannot hold, the order of its
members and all but the last of several members of one name.  A decoder that works on the document
and one that works on the value see the same, as far as the decoder refuses repeats: a member whose
name stands once is the one that is kept (`Json.filter_sorted`), and what a document is taken in as
does not depend on how many levels there are, if there are enough (`Document.toJson?_unique`).
`Document.Spelled` relates a document to the one that its value is written as.
-/

namespace Plotting

namespace Json

/-! ## Members that are not repeated -/

section Sorted
variable {key : String} {value : Json} {members : List (String × Json)} {p : String → Bool}

theorem filter_place_of_neg (h : ¬ p key = true) :
    (place key value members).filter (fun m => p m.1) = members.filter fun m => p m.1 := by
  induction members with
  | nil => rw [place, List.filter_cons, if_neg h]
  | cons n ns ih =>
    rw [place]
    split
    · rw [List.filter_cons, if_neg h]
    · split
      · rfl
      · rw [List.filter_cons, List.filter_cons, ih]

theorem filter_place_of_pos (h : p key = true) (hnone : ∀ m ∈ members, ¬ p m.1 = true) :
    (place key value members).filter (fun m => p m.1) = [(key, value)] := by
  induction members with
  | nil => rw [place, List.filter_cons, if_pos h, List.filter_nil]
  | cons n ns ih =>
    obtain ⟨hn, hns⟩ := List.forall_mem_cons.mp hnone
    rw [place]
    split
    · rw [List.filter_cons, if_pos h, List.filter_eq_nil_iff.mpr hnone]
    · split
      · next heq => exact absurd (heq ▸ h) hn
      · rw [List.filter_cons, if_neg hn, ih hns]

/-- Where at most one member has a name of some sort, sorting leaves it in. -/
theorem filter_sorted (h : members.countP (fun m => p m.1) ≤ 1) :
    (sorted members).filter (fun m => p m.1) = members.filter fun m => p m.1 := by
  induction members with
  | nil => rfl
  | cons m ms ih =>
    rw [sorted_cons, List.filter_cons]
    rw [List.countP_cons] at h
    by_cases hm : p m.1 = true
    · rw [if_pos hm] at h
      have hnone : ∀ n ∈ ms, ¬ p n.1 = true :=
        List.countP_eq_zero.mp (Nat.le_zero.mp (Nat.le_of_succ_le_succ h))
      have hsorted : ∀ n ∈ sorted ms, ¬ p n.1 = true :=
        fun n hn => hnone n (mem_of_mem_sorted hn)
      rw [if_pos hm, filter_place_of_pos hm hsorted, List.filter_eq_nil_iff.mpr hnone]
    · rw [if_neg hm] at h ⊢
      rw [filter_place_of_neg hm, ih h]

end Sorted
end Json

namespace Document

/-! ## More levels -/

mutual

/-- What is taken in is taken in as the same value where more containers may be nested. -/
theorem toJson?_mono : ∀ {levels more : ℕ} {d : Document} {j : Json}, levels ≤ more →
    toJson? levels d = some j → toJson? more d = some j
  | _, _, .null, _, _, h | _, _, .bool _, _, _, h | _, _, .int _, _, _, h
  | _, _, .float _, _, _, h | _, _, .str _, _, _, h => by rwa [toJson?] at h ⊢
  | _, _, .unreadable, _, _, h | 0, _, .arr _, _, _, h | 0, _, .obj _, _, _, h => by
    rw [toJson?] at h
    cases h
  | levels + 1, 0, _, _, hle, _ => absurd hle (Nat.not_succ_le_zero levels)
  | _ + 1, _ + 1, .arr _, _, hle, h => by
    rw [toJson?] at h ⊢
    obtain ⟨js, hjs, rfl⟩ := Option.map_eq_some_iff.mp h
    rw [toItems?_mono (Nat.le_of_succ_le_succ hle) hjs, Option.map_some]
  | _ + 1, _ + 1, .obj _, _, hle, h => by
    rw [toJson?] at h ⊢
    obtain ⟨ms, hms, rfl⟩ := Option.map_eq_some_iff.mp h
    rw [toMembers?_mono (Nat.le_of_succ_le_succ hle) hms, Option.map_some]

theorem toItems?_mono : ∀ {levels more : ℕ} {ds : List Document} {js : List Json},
    levels ≤ more → toItems? levels ds = some js → toItems? more ds = some js
  | _, _, [], _, _, h => by rwa [toItems?] at h ⊢
  | _, _, _ :: _, _, hle, h => by
    rw [toItems?] at h ⊢
    split at h
    · next j js hj hjs => rwa [toJson?_mono hle hj, toItems?_mono hle hjs]
    · cases h

theorem toMembers?_mono : ∀ {levels more : ℕ} {ms : List (String × Document)}
    {js : List (String × Json)}, levels ≤ more → toMembers? levels ms = some js →
    toMembers? more ms = some js
  | _, _, [], _, _, h => by rwa [toMembers?] at h ⊢
  | _, _, (_, _) :: _, _, hle, h => by
    rw [toMembers?] at h ⊢
    split at h
    · next j js hj hjs => rwa [toJson?_mono hle hj, toMembers?_mono hle hjs]
    · cases h

end

/-- The levels decide whether a document is taken in, but not as what. -/
theorem toJson?_unique {levels more : ℕ} {d : Document} {j k : Json}
    (hj : toJson? levels d = some j) (hk : toJson? more d = some k) : j = k := by
  have hj' := toJson?_mono (Nat.le_max_left levels more) hj
  have hk' := toJson?_mono (Nat.le_max_right levels more) hk
  exact Option.some.inj (hj'.symm.trans hk')

/-! ## Lists -/

theorem forall₂_of_mapM {α β : Type} {f : α → Option β} {as : List α} {bs : List β}
    (h : as.mapM f = some bs) : List.Forall₂ (fun a b => f a = some b) as bs := by
  induction as generalizing bs with
  | nil =>
    obtain rfl := Option.some.inj h
    exact .nil
  | cons a as ih =>
    rw [List.mapM_cons] at h
    obtain ⟨b, hb, h⟩ := Option.bind_eq_some_iff.mp h
    obtain ⟨bs', hbs, h⟩ := Option.bind_eq_some_iff.mp h
    obtain rfl := Option.some.inj h
    exact .cons hb (ih hbs)

/-! ## Spelled documents -/

/-- The second document is the one that the value of the first is written as. -/
def Spelled (levels : ℕ) (d d' : Document) : Prop :=
  ∃ j : Json, toJson? levels d = some j ∧ j.IsFreeForm levels ∧ d' = ofJson j

namespace Spelled
variable {levels more : ℕ} {d d' : Document}

theorem of_toJson? (hd : d.IsReadable) {j : Json} (h : toJson? levels d = some j) :
    Spelled levels d (ofJson j) :=
  ⟨j, h, isFreeForm_of_toJson? hd h, rfl⟩

/-- Strings are spelled as they are. -/
theorem str? (h : Spelled levels d d') {s : String} (hs : d.str? = some s) : d'.str? = some s := by
  obtain ⟨j, hj, -, rfl⟩ := h
  cases d with
  | str t =>
    rw [toJson?] at hj
    obtain rfl := Option.some.inj hj
    exact hs
  | _ => cases hs

/-- The value of the document is that of the document that the value is written as. -/
theorem toJson? (h : Spelled levels d d') (hle : levels ≤ more) {any : ℕ} {j : Json}
    (hj : d.toJson? any = some j) : d'.toJson? more = some j := by
  obtain ⟨k, hk, hfree, rfl⟩ := h
  obtain rfl := toJson?_unique hj hk
  exact toJson?_ofJson (hfree.mono hle)

end Spelled

theorem spelled_of_toItems? {levels : ℕ} {ds : List Document} {js : List Json}
    (hds : ItemsReadable ds) (h : toItems? levels ds = some js) :
    List.Forall₂ (Spelled levels) ds (ofItems js) := by
  induction ds generalizing js with
  | nil =>
    rw [toItems?] at h
    obtain rfl := Option.some.inj h
    exact .nil
  | cons d ds ih =>
    rw [toItems?] at h
    rw [ItemsReadable] at hds
    split at h
    · next j js hj hjs =>
      obtain rfl := Option.some.inj h
      exact .cons (.of_toJson? hds.1 hj) (ih hds.2 hjs)
    · cases h

/-! ## Listed values -/

/-- The document is an array of these values, which hold so many nested containers at most. -/
def Lists (levels : ℕ) (d : Document) (js : List Json) : Prop :=
  d.list? (toJson? levels) = some js

/-- Every array of free-form values is listed by a document. -/
theorem lists_ofJson {levels : ℕ} {js : List Json} (h : ∀ j ∈ js, j.IsFreeForm levels) :
    (ofJson (.arr js)).Lists levels js := by
  have hread : (js.map ofJson).mapM (toJson? levels) = some (js.map id) :=
    mapM_map_eq_some fun j hj => toJson?_ofJson (h j hj)
  rwa [List.map_id, ← ofItems_eq_map] at hread

theorem Lists.isFreeForm {levels : ℕ} {d : Document} {js : List Json}
    (h : d.Lists levels js) (hd : d.IsReadable) : ∀ j ∈ js, j.IsFreeForm levels :=
  (Yields.toJson? levels).list? d hd js h

/-! ## Records -/

namespace Record
variable {α : Type} {r r' : Record} {field : String} {absent a : α}
  {decode decode' : Document → Option α} {R : Document → Document → Prop}

theorem spelled_of_toMembers? {levels : ℕ} {r : Record} {ms : List (String × Json)}
    (hr : MembersReadable r) (h : toMembers? levels r = some ms) :
    List.Forall₂ (fun m n => m.1 = n.1 ∧ Spelled levels m.2 n.2) r (ofMembers ms) := by
  induction r generalizing ms with
  | nil =>
    rw [toMembers?] at h
    obtain rfl := Option.some.inj h
    exact .nil
  | cons m r ih =>
    obtain ⟨k, d⟩ := m
    rw [toMembers?] at h
    rw [MembersReadable] at hr
    split at h
    · next j js hj hjs =>
      obtain rfl := Option.some.inj h
      exact .cons ⟨rfl, .of_toJson? hr.1 hj⟩ (ih hr.2 hjs)
    · cases h

/-- Items that correspond one by one are corresponding fields. -/
theorem forall₂_zip {ds ds' : List Document} (h : List.Forall₂ R ds ds') (names : List String) :
    List.Forall₂ (fun m n => m.1 = n.1 ∧ R m.2 n.2) (names.zip ds) (names.zip ds') := by
  induction h generalizing names with
  | nil =>
    rw [List.zip_nil_right]
    exact .nil
  | cons hd _ ih =>
    cases names with
    | nil => exact .nil
    | cons name names => exact .cons ⟨rfl, hd⟩ (ih names)

theorem map_fst_eq (h : List.Forall₂ (fun m n => m.1 = n.1 ∧ R m.2 n.2) r r') :
    r.map Prod.fst = r'.map Prod.fst := by
  induction h with
  | nil => rfl
  | cons hmn _ ih => rw [List.map_cons, List.map_cons, hmn.1, ih]

theorem namesOnce_congr (h : r.map Prod.fst = r'.map Prod.fst) (fields : List String) :
    namesOnce fields r = namesOnce fields r' := by
  rw [namesOnce, namesOnce]
  simp only [countP_name, h]

/-- Records whose members correspond one by one have corresponding fields. -/
theorem rel_lookup (h : List.Forall₂ (fun m n => m.1 = n.1 ∧ R m.2 n.2) r r') (field : String) :
    Option.Rel R (r.lookup field) (r'.lookup field) := by
  induction h with
  | nil => exact .none
  | @cons m n r r' hmn _ ih =>
    obtain ⟨k, d⟩ := m
    obtain ⟨l, d'⟩ := n
    obtain ⟨rfl, hR⟩ := hmn
    rw [List.lookup_cons, List.lookup_cons]
    cases field == k with
    | true => exact .some hR
    | false => exact ih

/-- Among the members with names of some sort, those names are found as among all. -/
theorem lookup_filter (r : Record) {p : String → Bool} (h : p field = true) :
    (r.filter fun m => p m.1).lookup field = r.lookup field := by
  induction r with
  | nil => rfl
  | cons m r ih =>
    obtain ⟨k, d⟩ := m
    by_cases hk : p k = true
    · rw [List.filter_cons, if_pos hk, List.lookup_cons, List.lookup_cons, ih]
    · have hne : (field == k) = false := beq_eq_false_iff_ne.mpr fun heq => hk (heq ▸ h)
      rw [List.filter_cons, if_neg hk, List.lookup_cons, hne]
      exact ih

/-- And they are named as often. -/
theorem namesOnce_filter (r : Record) {p : String → Bool} {fields : List String}
    (h : ∀ field ∈ fields, p field = true) :
    namesOnce fields (r.filter fun m => p m.1) = namesOnce fields r := by
  have hcount : ∀ field ∈ fields, (r.filter fun m => p m.1).countP (fun m => m.1 = field) =
      r.countP fun m => m.1 = field := by
    intro field hfield
    rw [List.countP_filter]
    refine List.countP_congr fun m _ => ?_
    rw [Bool.and_eq_true, decide_eq_true_eq]
    exact and_iff_left_of_imp fun heq => heq ▸ h field hfield
  rw [Bool.eq_iff_iff, namesOnce, namesOnce, List.all_eq_true, List.all_eq_true]
  refine forall₂_congr fun field hfield => ?_
  rw [hcount field hfield]

/-- A field that is decoded is decoded as the same value from a corresponding field. -/
theorem withDefault_of_rel (hrel : Option.Rel R (r.lookup field) (r'.lookup field))
    (hdecode : ∀ d d', R d d' → decode d = some a → decode' d' = some a)
    (h : r.withDefault field absent decode = some a) :
    r'.withDefault field absent decode' = some a := by
  unfold withDefault at h ⊢
  cases hd : r.lookup field with
  | none =>
    rw [hd] at h hrel
    cases hd' : r'.lookup field with
    | none => exact h
    | some d' =>
      rw [hd'] at hrel
      cases hrel
  | some d =>
    rw [hd] at h hrel
    cases hd' : r'.lookup field with
    | none =>
      rw [hd'] at hrel
      cases hrel
    | some d' =>
      rw [hd'] at hrel
      cases hrel with
      | some hR => exact hdecode d d' hR h

end Record
end Document
end Plotting
