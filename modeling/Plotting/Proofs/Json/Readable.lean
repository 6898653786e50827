import Mathlib
import Plotting.Proofs.Double.Whole
import Plotting.Proofs.Json.FreeForm

/-!
# The numbers of a text

Whatever text is read, the document holds finite doubles and whole numbers of 64 bits only.  A
numeral without a value of that sort is unreadable as a whole, and the recursion of the reader puts
together what it has read without touching it.  Hence everything taken in from a text is free-form
(`Document.isFreeForm_of_parse?`), and a decoder that takes a number finds a finite one.
-/

namespace Plotting
namespace Document

/-! ## Reading -/

theorem itemsReadable_iff {ds : List Document} : ItemsReadable ds ↔ ∀ d ∈ ds, d.IsReadable := by
  induction ds with
  | nil => simp [ItemsReadable]
  | cons d ds ih => rw [ItemsReadable, ih, List.forall_mem_cons]

theorem membersReadable_iff {ms : List (String × Document)} :
    MembersReadable ms ↔ ∀ m ∈ ms, m.2.IsReadable := by
  induction ms with
  | nil => simp [MembersReadable]
  | cons m ms ih => rw [MembersReadable, ih, List.forall_mem_cons]

theorem isReadable_unreadable : IsReadable .unreadable := by
  rw [IsReadable]
  trivial

/-- A numeral spells a finite double, a whole number of 64 bits, or nothing. -/
theorem isReadable_ofNumeral (reader : NumberReader) (negative : Bool) (n : Numeral) :
    (ofNumeral reader negative n).IsReadable := by
  unfold ofNumeral
  simp only
  split
  · next h =>
    simp only [Bool.and_eq_true, decide_eq_true_eq, Nat.pow_eq] at h
    rw [IsReadable]
    omega
  split
  · next h =>
    simp only [Bool.and_eq_true, decide_eq_true_eq, Nat.pow_eq] at h
    rw [IsReadable]
    omega
  split
  · next h =>
    rw [IsReadable]
    split
    · exact Double.isFinite_neg h
    · exact h
  · exact isReadable_unreadable

theorem isReadable_readNumber {reader : NumberReader} {cs rest : List Char} {d : Document}
    (h : readNumber reader cs = some (d, rest)) : d.IsReadable := by
  obtain ⟨negative, cs', hread⟩ : ∃ negative cs', readNumber reader cs =
      if admits (Numeral.scan cs') then
        some (ofNumeral reader negative (Numeral.scan cs'),
          cs'.drop (Numeral.scan cs').text.length)
      else none := ⟨_, _, rfl⟩
  rw [hread] at h
  split at h
  · obtain ⟨rfl, -⟩ := Prod.mk.inj (Option.some.inj h)
    exact isReadable_ofNumeral _ _ _
  · cases h

/-- What a list is read as, item by item, are the readings of its items. -/
theorem exists_of_mem_mapM {α β : Type} {f : α → Option β} {as : List α} {bs : List β}
    (h : as.mapM f = some bs) : ∀ b ∈ bs, ∃ a ∈ as, f a = some b := by
  induction as generalizing bs with
  | nil =>
    obtain rfl := Option.some.inj h
    exact List.forall_mem_nil _
  | cons a as ih =>
    rw [List.mapM_cons] at h
    obtain ⟨b, hb, h⟩ := Option.bind_eq_some_iff.mp h
    obtain ⟨bs', hbs, h⟩ := Option.bind_eq_some_iff.mp h
    obtain rfl := Option.some.inj h
    refine List.forall_mem_cons.mpr ⟨⟨a, List.mem_cons_self, hb⟩, fun c hc => ?_⟩
    obtain ⟨a', ha', hread⟩ := ih hbs c hc
    exact ⟨a', List.mem_cons_of_mem a ha', hread⟩

theorem isReadable_ofReadMembers {members : List (Option String × Document)}
    (h : ∀ m ∈ members, m.2.IsReadable) : (ofReadMembers members).IsReadable := by
  unfold ofReadMembers
  split
  · next ms hms =>
    rw [IsReadable]
    refine membersReadable_iff.mpr fun m hm => ?_
    obtain ⟨n, hn, hread⟩ := exists_of_mem_mapM hms m hm
    obtain ⟨k, -, rfl⟩ := Option.map_eq_some_iff.mp hread
    exact h n hn
  · exact isReadable_unreadable

/-- Each of the three readers reads readable documents with the given fuel. -/
structure ReadsReadable (reader : NumberReader) (fuel : ℕ) : Prop where
  value : ∀ {cs rest d}, readValue reader fuel cs = some (d, rest) → d.IsReadable
  items : ∀ {cs rest ds}, readItems reader fuel cs = some (ds, rest) → ∀ d ∈ ds, d.IsReadable
  members : ∀ {cs rest ms}, readMembers reader fuel cs = some (ms, rest) → ∀ m ∈ ms, m.2.IsReadable

namespace ReadsReadable

variable {reader : NumberReader} {fuel : ℕ} {cs rest : List Char}

theorem zero : ReadsReadable reader 0 where
  value h := by
    rw [readValue] at h
    cases h
  items h := by
    rw [readItems] at h
    cases h
  members h := by
    rw [readMembers] at h
    cases h

/-- The cases are the first characters of a value. -/
theorem value_succ (hfuel : ReadsReadable reader fuel) {d : Document}
    (h : readValue reader (fuel + 1) cs = some (d, rest)) : d.IsReadable := by
  rw [readValue.eq_def] at h
  split at h
  · cases h
  · cases h
  · cases h
    rw [IsReadable]
    trivial
  · cases h
    rw [IsReadable]
    trivial
  · cases h
    rw [IsReadable]
    trivial
  · obtain ⟨⟨s, after⟩, -, h⟩ := Option.bind_eq_some_iff.mp h
    obtain ⟨rfl, -⟩ := Prod.mk.inj (Option.some.inj h)
    cases s <;> rw [IsReadable] <;> trivial
  · next tail heq =>
    obtain rfl := Nat.succ.inj heq
    simp only at h
    split at h
    · cases h
      rw [IsReadable]
      exact itemsReadable_iff.mpr (List.forall_mem_nil _)
    · obtain ⟨⟨ds, after⟩, hds, h⟩ := Option.bind_eq_some_iff.mp h
      cases h
      rw [IsReadable]
      exact itemsReadable_iff.mpr (hfuel.items hds)
  · next tail heq =>
    obtain rfl := Nat.succ.inj heq
    simp only at h
    split at h
    · cases h
      rw [IsReadable]
      exact membersReadable_iff.mpr (List.forall_mem_nil _)
    · obtain ⟨⟨ms, after⟩, hms, h⟩ := Option.bind_eq_some_iff.mp h
      cases h
      exact isReadable_ofReadMembers (hfuel.members hms)
  · exact isReadable_readNumber h

theorem items_succ (hfuel : ReadsReadable reader fuel) {ds : List Document}
    (h : readItems reader (fuel + 1) cs = some (ds, rest)) : ∀ d ∈ ds, d.IsReadable := by
  rw [readItems] at h
  obtain ⟨⟨item, after⟩, hitem, h⟩ := Option.bind_eq_some_iff.mp h
  simp only at h
  split at h
  · obtain ⟨⟨ds', rest'⟩, hrest, h⟩ := Option.bind_eq_some_iff.mp h
    cases h
    exact List.forall_mem_cons.mpr ⟨hfuel.value hitem, hfuel.items hrest⟩
  · cases h
    exact List.forall_mem_singleton.mpr (hfuel.value hitem)
  · cases h

theorem members_succ (hfuel : ReadsReadable reader fuel) {ms : List (Option String × Document)}
    (h : readMembers reader (fuel + 1) cs = some (ms, rest)) : ∀ m ∈ ms, m.2.IsReadable := by
  rw [readMembers] at h
  split at h
  · obtain ⟨⟨key, after⟩, -, h⟩ := Option.bind_eq_some_iff.mp h
    simp only at h
    split at h
    · obtain ⟨⟨item, after'⟩, hitem, h⟩ := Option.bind_eq_some_iff.mp h
      simp only at h
      split at h
      · obtain ⟨⟨ms', rest'⟩, hrest, h⟩ := Option.bind_eq_some_iff.mp h
        cases h
        exact List.forall_mem_cons.mpr ⟨hfuel.value hitem, hfuel.members hrest⟩
      · cases h
        exact List.forall_mem_singleton.mpr (hfuel.value hitem)
      · cases h
    · cases h
  · cases h

theorem all (reader : NumberReader) (fuel : ℕ) : ReadsReadable reader fuel := by
  induction fuel with
  | zero => exact zero
  | succ fuel ih => exact ⟨ih.value_succ, ih.items_succ, ih.members_succ⟩

end ReadsReadable

/-- A text spells a readable document, if any. -/
theorem isReadable_of_parse? {reader : NumberReader} {text : String} {d : Document}
    (h : parse? text reader = some d) :
    d.IsReadable := by
  unfold parse? at h
  obtain ⟨⟨d', rest⟩, hread, h⟩ := Option.bind_eq_some_iff.mp h
  simp only at h
  split at h
  · obtain rfl := Option.some.inj h
    exact (ReadsReadable.all reader _).value hread
  · cases h

/-! ## Decoding -/

/-- Whatever the decoder makes of a readable document has the property. -/
def Yields {α : Type} (decode : Document → Option α) (P : α → Prop) : Prop :=
  ∀ d : Document, d.IsReadable → ∀ a, decode d = some a → P a

mutual

/-- A free-form value is a readable document. -/
theorem isReadable_ofJson : ∀ {j : Json}, j.IsPrintable → (ofJson j).IsReadable
  | .null, _ | .bool _, _ | .str _, _ => by
    rw [ofJson, IsReadable]
    trivial
  | .int _, h | .float _, h => by
    rw [Json.IsPrintable] at h
    rwa [ofJson, IsReadable]
  | .arr _, h => by
    rw [Json.IsPrintable] at h
    rw [ofJson, IsReadable]
    exact itemsReadable_ofItems h
  | .obj _, h => by
    rw [Json.IsPrintable] at h
    rw [ofJson, IsReadable]
    exact membersReadable_ofMembers h

theorem itemsReadable_ofItems : ∀ {items : List Json}, Json.ItemsPrintable items →
    ItemsReadable (ofItems items)
  | [], _ => by
    rw [ofItems, ItemsReadable]
    trivial
  | _ :: _, h => by
    rw [Json.ItemsPrintable] at h
    rw [ofItems, ItemsReadable]
    exact ⟨isReadable_ofJson h.1, itemsReadable_ofItems h.2⟩

theorem membersReadable_ofMembers : ∀ {members : List (String × Json)},
    Json.MembersPrintable members → MembersReadable (ofMembers members)
  | [], _ => by
    rw [ofMembers, MembersReadable]
    trivial
  | (_, _) :: _, h => by
    rw [Json.MembersPrintable] at h
    rw [ofMembers, MembersReadable]
    exact ⟨isReadable_ofJson h.1, membersReadable_ofMembers h.2⟩

end

namespace Yields

variable {α β : Type} {decode : Document → Option α} {P : α → Prop} {Q : β → Prop}

/-- A number is finite. -/
theorem float? : Yields float? fun x => x.isFinite = true := by
  intro d hd x h
  cases d with
  | float y =>
    obtain rfl := Option.some.inj h
    rwa [IsReadable] at hd
  | int n =>
    obtain rfl := Option.some.inj h
    rw [IsReadable] at hd
    exact Double.isFinite_ofInt hd.1 hd.2
  | _ => cases h

/-- What is taken in is free-form. -/
theorem toJson? (levels : ℕ) : Yields (Document.toJson? levels) (Json.IsFreeForm levels) :=
  fun _ hd _ h => isFreeForm_of_toJson? hd h

theorem list? (h : Yields decode P) : Yields (Document.list? decode) fun as => ∀ a ∈ as, P a := by
  intro d hd as has
  cases d with
  | arr items =>
    rw [IsReadable] at hd
    intro a ha
    obtain ⟨d, hmem, hread⟩ := exists_of_mem_mapM has a ha
    exact h d (itemsReadable_iff.mp hd d hmem) a hread
  | _ => cases has

theorem map {f : α → β} (h : Yields decode P) (hf : ∀ a, P a → Q (f a)) :
    Yields (fun d => (decode d).map f) Q := by
  intro d hd b hb
  obtain ⟨a, ha, rfl⟩ := Option.map_eq_some_iff.mp hb
  exact hf a (h d hd a ha)

theorem nullable? (h : Yields decode P) :
    Yields (Document.nullable? decode) fun o => ∀ a ∈ o, P a := by
  intro d hd o ho
  by_cases hnull : d = .null
  · subst hnull
    obtain rfl := Option.some.inj ho
    exact fun a ha => nomatch ha
  · have hread : (decode d).map some = some o := by
      cases d with
      | null => exact absurd rfl hnull
      | _ => exact ho
    obtain ⟨a, ha, rfl⟩ := Option.map_eq_some_iff.mp hread
    rintro _ ⟨⟩
    exact h d hd a ha

end Yields

/-! ## Records -/

/-- The value of every member is readable. -/
def Record.IsReadable (r : Record) : Prop :=
  ∀ m ∈ r, m.2.IsReadable

theorem isReadable_of_record? {fields : List String} {d : Document} {r : Record}
    (hd : d.IsReadable) (h : record? fields d = some r) : r.IsReadable := by
  cases d with
  | obj members =>
    rw [Document.IsReadable] at hd
    rw [record?] at h
    split at h
    · obtain rfl := Option.some.inj h
      exact membersReadable_iff.mp hd
    · cases h
  | arr items =>
    rw [Document.IsReadable] at hd
    rw [record?] at h
    split at h
    · obtain rfl := Option.some.inj h
      exact fun m hm => itemsReadable_iff.mp hd m.2 (List.of_mem_zip hm).2
    · cases h
  | _ => cases h

namespace Record

variable {α : Type} {r : Record} {field : String} {absent a : α} {decode : Document → Option α}
  {P : α → Prop}

theorem IsReadable.of_lookup (hr : r.IsReadable) {d : Document} (h : r.lookup field = some d) :
    d.IsReadable := by
  obtain ⟨before, after, rfl, -⟩ := List.lookup_eq_some_iff.mp h
  exact hr (field, d) (List.mem_append_right before List.mem_cons_self)

theorem withDefault_yields (hr : r.IsReadable) (habsent : P absent) (hdecode : Yields decode P)
    (h : r.withDefault field absent decode = some a) : P a := by
  unfold withDefault at h
  split at h
  · obtain rfl := Option.some.inj h
    exact habsent
  · next d hlookup => exact hdecode d (hr.of_lookup hlookup) a h

theorem optional_yields (hr : r.IsReadable) (hdecode : Yields decode P) {o : Option α}
    (h : r.optional field decode = some o) : ∀ b ∈ o, P b :=
  withDefault_yields hr (fun _ hb => nomatch hb) hdecode.nullable? h

theorem lenient_yields (hr : r.IsReadable) (habsent : P absent) (hdecode : Yields decode P) :
    P (r.lenient field absent decode) := by
  unfold lenient
  cases hread : (r.lookup field).bind decode with
  | none => exact habsent
  | some b =>
    obtain ⟨d, hlookup, hb⟩ := Option.bind_eq_some_iff.mp hread
    exact hdecode d (hr.of_lookup hlookup) b hb

end Record
end Document
end Plotting
