import Plotting.Json.Record

/-!
# Records are read back member by member

A record is written as an object whose members stand one after another, some of
them only if there is something to write.  To read it back, no two members may
have one name, and every field has to be found under its own.  Both follow from
the list of all names that the record can have: the members that are written are
a sublist of it, and a member is looked up in each piece of the list in turn.
-/

namespace Plotting

namespace Json
variable {α : Type} {key field : String} {encode : α → Json}

/-! ## The names of written members -/

/-- The names of members, in order. -/
def keys (members : List (String × Json)) : List String :=
  members.map Prod.fst

@[simp] theorem keys_nil : keys [] = [] := rfl

@[simp] theorem keys_cons (m : String × Json) (ms : List (String × Json)) :
    keys (m :: ms) = m.1 :: keys ms := rfl

@[simp] theorem keys_append (ms ns : List (String × Json)) :
    keys (ms ++ ns) = keys ms ++ keys ns :=
  List.map_append

theorem keys_optional (a : Option α) : (keys (optional key encode a)).Sublist [key] := by
  cases a with
  | none => exact List.nil_sublist _
  | some a => exact List.Sublist.refl _

theorem keys_nonempty (as : List α) : (keys (nonempty key encode as)).Sublist [key] := by
  cases as with
  | nil => exact List.nil_sublist _
  | cons a as => exact List.Sublist.refl _

/-! ## Where a member is found -/

@[simp] theorem lookup_optional (a : Option α) :
    (optional key encode a).lookup field = if field = key then a.map encode else none := by
  by_cases h : field = key
  · subst h
    cases a <;> simp [optional]
  · cases a <;> simp [optional, h]

@[simp] theorem lookup_nonempty (as : List α) :
    (nonempty key encode as).lookup field =
      if field = key ∧ as ≠ [] then some (list encode as) else none := by
  by_cases h : field = key
  · subst h
    cases as <;> simp [nonempty]
  · cases as <;> simp [nonempty, h]

end Json

namespace Document
variable {α : Type} {members : List (String × Json)} {field : String} {encode : α → Json}
  {decode : Document → Option α}

/-! ## Lists that are read as something else -/

/-- A list is read item by item. -/
theorem mapM_map_eq_some {β γ : Type} {write : α → β} {read : β → Option γ} {f : α → γ}
    {items : List α} (h : ∀ a ∈ items, read (write a) = some (f a)) :
    (items.map write).mapM read = some (items.map f) := by
  induction items with
  | nil => rfl
  | cons a as ih =>
    obtain ⟨ha, has⟩ := List.forall_mem_cons.mp h
    rw [List.map_cons, List.mapM_cons, ha, ih has]
    rfl

/-- A list that was written is read item by item, as whatever its items are read as. -/
theorem list?_ofJson_map {β : Type} {read : Document → Option β} {f : α → β} {items : List α}
    (h : ∀ a ∈ items, read (ofJson (encode a)) = some (f a)) :
    list? read (ofJson (Json.list encode items)) = some (items.map f) := by
  rw [Json.list, ofJson, ofItems_eq_map, list?, List.map_map]
  exact mapM_map_eq_some h

/-! ## Records of written members -/

theorem map_fst_ofMembers (members : List (String × Json)) :
    (ofMembers members).map Prod.fst = Json.keys members := by
  rw [ofMembers_eq_map, List.map_map]
  rfl

theorem lookup_ofMembers (members : List (String × Json)) (field : String) :
    (ofMembers members).lookup field = (members.lookup field).map ofJson := by
  induction members with
  | nil => rfl
  | cons m ms ih =>
    obtain ⟨k, j⟩ := m
    rw [ofMembers, List.lookup_cons, List.lookup_cons, ih]
    cases field == k <;> rfl

/-- The members of a name are as many as its occurrences among the names. -/
theorem countP_name (r : Record) (f : String) :
    r.countP (fun m => m.1 = f) = (r.map Prod.fst).count f := by
  rw [List.count, List.countP_map]
  exact List.countP_congr fun m _ => by simp

theorem namesOnce_of_nodup {r : Record} (h : (r.map Prod.fst).Nodup) (fields : List String) :
    namesOnce fields r = true := by
  rw [namesOnce, List.all_eq_true]
  intro f _
  rw [decide_eq_true_eq, countP_name]
  exact List.nodup_iff_count.mp h f

/-- Members with different names are a record of any fields. -/
theorem record?_ofJson_obj (h : (Json.keys members).Nodup) (fields : List String) :
    record? fields (ofJson (.obj members)) = some (ofMembers members) := by
  have hnames : namesOnce fields (ofMembers members) = true :=
    namesOnce_of_nodup (by rw [map_fst_ofMembers]; exact h) fields
  rw [ofJson, record?, if_pos hnames]

/-! ## Fields -/

@[simp] theorem str?_ofJson (s : String) : str? (ofJson (.str s)) = some s := rfl

@[simp] theorem bool?_ofJson (b : Bool) : bool? (ofJson (.bool b)) = some b := rfl

namespace Record

theorem required_ofMembers {j : Json} (h : members.lookup field = some j) :
    Record.required (ofMembers members) field decode = decode (ofJson j) := by
  rw [Record.required, lookup_ofMembers, h, Option.map_some, Option.bind_some]

theorem withDefault_ofMembers {j : Json} {absent : α} (h : members.lookup field = some j) :
    Record.withDefault (ofMembers members) field absent decode = decode (ofJson j) := by
  rw [Record.withDefault, lookup_ofMembers, h, Option.map_some]

theorem withDefault_ofMembers_of_none {absent : α} (h : members.lookup field = none) :
    Record.withDefault (ofMembers members) field absent decode = some absent := by
  rw [Record.withDefault, lookup_ofMembers, h, Option.map_none]

/-- A list that is left out when empty, and empty when left out. -/
theorem withDefault_nonempty {as : List α}
    (h : members.lookup field = if as ≠ [] then some (Json.list encode as) else none)
    (hread : ∀ a ∈ as, decode (ofJson (encode a)) = some a) :
    Record.withDefault (ofMembers members) field [] (list? decode) = some as := by
  by_cases has : as = []
  · subst has
    exact withDefault_ofMembers_of_none h
  · rw [if_pos has] at h
    rw [withDefault_ofMembers h]
    exact list?_ofJson_list hread

theorem nullable?_eq_some (hnull : decode .null = none) {d : Document} {a : α}
    (h : decode d = some a) : nullable? decode d = some (some a) := by
  cases d with
  | null => rw [hnull] at h; cases h
  | _ => simp only [nullable?, h, Option.map_some]

/-- A field that is left out when there is no value, and has none when left out.
A decoder that takes null would take it for no value. -/
theorem optional_ofMembers {a : Option α} (hnull : decode .null = none)
    (h : members.lookup field = a.map encode)
    (hread : ∀ b ∈ a, decode (ofJson (encode b)) = some b) :
    Record.optional (ofMembers members) field decode = some a := by
  cases a with
  | none => exact withDefault_ofMembers_of_none h
  | some b =>
    rw [Record.optional, withDefault_ofMembers h]
    exact nullable?_eq_some hnull (hread b rfl)

theorem lenient_ofMembers {j : Json} {absent a : α} (h : members.lookup field = some j)
    (hread : decode (ofJson j) = some a) :
    Record.lenient (ofMembers members) field absent decode = a := by
  rw [Record.lenient, lookup_ofMembers, h, Option.map_some, Option.bind_some, hread,
    Option.getD_some]

theorem lenient_ofMembers_of_none {absent : α} (h : members.lookup field = none) :
    Record.lenient (ofMembers members) field absent decode = absent := by
  rw [Record.lenient, lookup_ofMembers, h, Option.map_none, Option.bind_none, Option.getD_none]

end Record
end Document
end Plotting
