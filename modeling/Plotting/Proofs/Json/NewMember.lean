import Plotting.Proofs.Json.Members

/-!
# Records with one member more

A member of a new name, wherever it stands among the others, changes nothing for the fields of
other names, and the record is taken as one under the same condition.  `Record.Inserts` relates the
members of a record with and without it; the lemmas say what that means for each way of reading a
field.
-/

namespace Plotting
namespace Document
namespace Record

/-- The second record has one member more than the first, under a name of its own. -/
structure Inserts (key : String) (d : Document) (r r' : Record) : Prop where
  namesOnce : ∀ fields, Document.namesOnce fields r' = Document.namesOnce fields r
  absent : r.lookup key = none
  present : r'.lookup key = some d
  others : ∀ field, field ≠ key → r'.lookup field = r.lookup field

variable {α : Type} {key field : String} {d : Document} {r r' : Record} {absent : α}
  {decode : Document → Option α}

/-! ## Fields of other names -/

theorem Inserts.withDefault (h : Inserts key d r r') (hfield : field ≠ key) (absent : α)
    (decode : Document → Option α) :
    r'.withDefault field absent decode = r.withDefault field absent decode := by
  rw [Record.withDefault, Record.withDefault, h.others field hfield]

theorem Inserts.optional (h : Inserts key d r r') (hfield : field ≠ key)
    (decode : Document → Option α) : r'.optional field decode = r.optional field decode :=
  h.withDefault hfield none (nullable? decode)

theorem Inserts.lenient (h : Inserts key d r r') (hfield : field ≠ key) (absent : α)
    (decode : Document → Option α) :
    r'.lenient field absent decode = r.lenient field absent decode := by
  rw [Record.lenient, Record.lenient, h.others field hfield]

/-! ## The field of the new name -/

/-- Without the member there is the default. -/
theorem Inserts.lenient_absent (h : Inserts key d r r') :
    r.lenient key absent decode = absent := by
  rw [Record.lenient, h.absent, Option.bind_none, Option.getD_none]

/-- The new value counts if it fits, and else it is as it was without. -/
theorem Inserts.lenient_key (h : Inserts key d r r') :
    r'.lenient key absent decode = (decode d).getD (r.lenient key absent decode) := by
  rw [h.lenient_absent, Record.lenient, h.present, Option.bind_some]

/-- A value that may be missing, in the same way. -/
theorem Inserts.lenient_key_some (h : Inserts key d r r') :
    (r'.lenient key none fun d => (decode d).map some) =
      (decode d).or (r.lenient key none fun d => (decode d).map some) := by
  rw [h.lenient_key]
  cases decode d <;> rfl

/-! ## Whole records -/

/-- What changes one field changes the record that is read in the same way. -/
theorem Inserts.record?_bind (h : Inserts key d r r') {fields : List String}
    {read : Record → Option α} {change : α → α} (hread : read r' = (read r).map change) :
    ((Document.obj r').record? fields).bind read =
      (((Document.obj r).record? fields).bind read).map change := by
  unfold Document.record?
  dsimp only
  rw [h.namesOnce]
  split
  · exact hread
  · rfl

/-! ## Where the new member stands -/

/-- A name that no member has is not found. -/
theorem lookup_eq_none (h : key ∉ r.map Prod.fst) : r.lookup key = none := by
  refine List.lookup_eq_none_iff.mpr fun m hm => bne_iff_ne.mpr ?_
  rintro rfl
  exact h (List.mem_map_of_mem hm)

/-- A field that is decoded is named. -/
theorem mem_of_required {a : α} (h : r.required field decode = some a) :
    field ∈ r.map Prod.fst := by
  by_cases hnamed : field ∈ r.map Prod.fst
  · exact hnamed
  · rw [required, lookup_eq_none hnamed] at h
    cases h

theorem inserts_append {before after : Record} (hbefore : key ∉ before.map Prod.fst)
    (hafter : key ∉ after.map Prod.fst) (d : Document) :
    Inserts key d (before ++ after) (before ++ (key, d) :: after) where
  namesOnce fields := by
    unfold Document.namesOnce
    congr 1
    funext f
    simp only [countP_name, List.map_append, List.map_cons, List.count_append, List.count_cons]
    by_cases hf : key = f
    · subst hf
      rw [List.count_eq_zero.mpr hbefore, List.count_eq_zero.mpr hafter, beq_self_eq_true]
      rfl
    · rw [beq_eq_false_iff_ne.mpr hf]
      rfl
  absent := by
    rw [List.lookup_append, lookup_eq_none hbefore, lookup_eq_none hafter]
    rfl
  present := by
    rw [List.lookup_append, lookup_eq_none hbefore, List.lookup_cons_self]
    rfl
  others field hfield := by
    rw [List.lookup_append, List.lookup_append, List.lookup_cons, beq_eq_false_iff_ne.mpr hfield]

/-- A member is found under its name if no other one has that name. -/
theorem lookup_of_mem (honce : r.countP (fun m => m.1 = key) ≤ 1) (hm : (key, d) ∈ r) :
    r.lookup key = some d := by
  obtain ⟨before, after, rfl⟩ := List.append_of_mem hm
  rw [countP_name, List.map_append, List.map_cons, List.count_append, List.count_cons_self] at honce
  have hbefore : (before.map Prod.fst).count key = 0 := by omega
  have hafter : (after.map Prod.fst).count key = 0 := by omega
  exact (inserts_append (List.count_eq_zero.mp hbefore) (List.count_eq_zero.mp hafter) d).present

end Record
end Document
end Plotting
