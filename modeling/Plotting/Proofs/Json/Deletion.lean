import Mathlib.Data.Finset.Defs
import Plotting.Proofs.Json.NewMember

/-!
# Records with members left out

Members may be deleted from a record, and those that are left may stand in another order.  If the
names were different before, a deleted field is not found and any other is found as it was.  So a
field with a default has its default where it was deleted and is decoded as before where it was not.
-/

namespace Plotting
namespace Document
namespace Record

/-- The second record has the members of the first but for the deleted names, in any order. -/
def Leaves (deleted : Finset String) (r r' : Record) : Prop :=
  r'.Perm (r.filter fun m => m.1 ∉ deleted)

namespace Leaves
variable {α : Type} {deleted : Finset String} {r r' : Record} {field : String} {absent own : α}
  {decode : Document → Option α}

theorem mem_iff (h : Leaves deleted r r') {m : String × Document} :
    m ∈ r' ↔ m ∈ r ∧ m.1 ∉ deleted := by
  rw [List.Perm.mem_iff h, List.mem_filter, decide_eq_true_eq]

theorem nodup (h : Leaves deleted r r') (hr : (r.map Prod.fst).Nodup) :
    (r'.map Prod.fst).Nodup :=
  (List.Perm.map Prod.fst h).nodup_iff.mpr ((List.filter_sublist.map Prod.fst).nodup hr)

/-- A deleted field is not found. -/
theorem lookup_of_mem (h : Leaves deleted r r') (hfield : field ∈ deleted) :
    r'.lookup field = none := by
  refine lookup_eq_none fun hname => ?_
  obtain ⟨m, hm, rfl⟩ := List.mem_map.mp hname
  exact (h.mem_iff.mp hm).2 hfield

/-- Any other field is found as before. -/
theorem lookup_of_notMem (h : Leaves deleted r r') (hr : (r.map Prod.fst).Nodup)
    (hfield : field ∉ deleted) : r'.lookup field = r.lookup field := by
  have honce : r'.countP (fun m => m.1 = field) ≤ 1 := by
    rw [countP_name]
    exact List.nodup_iff_count.mp (h.nodup hr) field
  cases hlookup : r.lookup field with
  | none =>
    refine lookup_eq_none fun hname => ?_
    obtain ⟨m, hm, rfl⟩ := List.mem_map.mp hname
    have hne := List.lookup_eq_none_iff.mp hlookup m (h.mem_iff.mp hm).1
    rw [bne_self_eq_false] at hne
    cases hne
  | some d =>
    obtain ⟨before, after, rfl, -⟩ := List.lookup_eq_some_iff.mp hlookup
    have hmem : (field, d) ∈ before ++ (field, d) :: after :=
      List.mem_append_right before List.mem_cons_self
    exact Record.lookup_of_mem honce (h.mem_iff.mpr ⟨hmem, hfield⟩)

/-- A field has its default where it was deleted, and its own value where it was not. -/
theorem withDefault (h : Leaves deleted r r') (hr : (r.map Prod.fst).Nodup)
    (hread : r.withDefault field absent decode = some own) :
    r'.withDefault field absent decode = some (if field ∈ deleted then absent else own) := by
  by_cases hfield : field ∈ deleted
  · rw [Record.withDefault, h.lookup_of_mem hfield, if_pos hfield]
  · rw [if_neg hfield, ← hread, Record.withDefault, Record.withDefault,
      h.lookup_of_notMem hr hfield]

end Leaves

/-- Deleting members before they are written deletes them from the record that is read. -/
theorem leaves_ofMembers {deleted : Finset String} {members kept : List (String × Json)}
    (h : kept.Perm (members.filter fun m => m.1 ∉ deleted)) :
    Leaves deleted (ofMembers members) (ofMembers kept) := by
  rw [Leaves, ofMembers_eq_map, ofMembers_eq_map, List.filter_map]
  exact h.map _

end Record

end Document
end Plotting
