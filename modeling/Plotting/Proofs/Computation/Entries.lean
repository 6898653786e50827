import Mathlib.Data.List.Nodup
import Plotting.Computation
import Plotting.Proofs.Json.Members
import Plotting.Proofs.Json.Printable

/-!
# Entries keep the order of their keys

Entries hold each key once, at the place where it first appeared and with the value it was given
last.  That is how they are made from members, in which keys may repeat.  Entries that are written
and made again from their own members are therefore the same entries: no key repeats, so each member
is new when its turn comes and goes to the end.
-/

namespace Plotting
namespace Entries

variable {es : Entries} {key value : String}

/-- The keys of the entries, in order. -/
def keys (es : Entries) : List String :=
  es.map Prod.fst

@[simp] theorem keys_nil : keys [] = [] := rfl

@[simp] theorem keys_cons (e : String × String) (es : Entries) :
    keys (e :: es) = e.1 :: keys es := rfl

@[simp] theorem keys_append (es fs : Entries) : keys (es ++ fs) = keys es ++ keys fs :=
  List.map_append

/-- A key that is there already stays in its place. -/
theorem keys_put_of_mem (h : key ∈ keys es) : keys (put key value es) = keys es := by
  induction es with
  | nil => exact absurd h List.not_mem_nil
  | cons e es ih =>
    rw [put]
    split
    · next hkey => rw [keys_cons, keys_cons, hkey]
    · next hkey =>
      rw [keys_cons, keys_cons, ih (List.mem_of_ne_of_mem (Ne.symm hkey) h)]

/-- A new key goes to the end. -/
theorem put_of_notMem (h : key ∉ keys es) : put key value es = es ++ [(key, value)] := by
  induction es with
  | nil => rfl
  | cons e es ih =>
    obtain ⟨hne, hnotMem⟩ := not_or.mp (List.mem_cons.not.mp h)
    rw [put, if_neg (Ne.symm hne), ih hnotMem, List.cons_append]

theorem nodup_keys_put (h : (keys es).Nodup) : (keys (put key value es)).Nodup := by
  by_cases hkey : key ∈ keys es
  · rwa [keys_put_of_mem hkey]
  · rw [put_of_notMem hkey, keys_append]
    exact h.append (List.nodup_singleton _) (List.disjoint_singleton.mpr hkey)

/-- Whatever is put, no key is there twice. -/
theorem nodup_keys_ofMembers (members : List (String × String)) :
    (keys (ofMembers members)).Nodup := by
  have hput : ∀ es : Entries, (keys es).Nodup →
      (keys (members.foldl (fun es m => put m.1 m.2 es) es)).Nodup := by
    induction members with
    | nil => exact fun es h => h
    | cons m ms ih => exact fun es h => ih _ (nodup_keys_put h)
  exact hput [] List.nodup_nil

/-- Entries without a repeated key are made of themselves. -/
theorem ofMembers_eq_self (h : (keys es).Nodup) : ofMembers es = es := by
  have hput : ∀ before : Entries, (keys (before ++ es)).Nodup →
      es.foldl (fun es m => put m.1 m.2 es) before = before ++ es := by
    induction es with
    | nil => exact fun before _ => (List.append_nil before).symm
    | cons e es ih =>
      intro before hbefore
      have hnew : e.1 ∉ keys before := by
        rw [keys_append, keys_cons] at hbefore
        exact fun hmem => (List.disjoint_of_nodup_append hbefore) hmem List.mem_cons_self
      have hsplit : before ++ e :: es = (before ++ [e]) ++ es := by simp
      rw [hsplit] at hbefore ⊢
      rw [List.foldl_cons, put_of_notMem hnew]
      exact ih (List.nodup_cons.mp h).2 _ hbefore
  exact hput [] h

/-! ## Written and read -/

@[simp] theorem isPrintable_toJson (es : Entries) : es.toJson.IsPrintable := by
  rw [toJson, Json.IsPrintable]
  induction es with
  | nil => trivial
  | cons e es ih => exact ⟨trivial, ih⟩

/-- Entries without a repeated key are read back. -/
theorem decode?_toJson (h : (keys es).Nodup) : decode? (.ofJson es.toJson) = some es := by
  have hmembers : Document.ofJson es.toJson =
      .obj (es.map fun e => (e.1, Document.ofJson (.str e.2))) := by
    rw [toJson, Document.ofJson, Document.ofMembers_eq_map, List.map_map]
    rfl
  have htexts : ∀ read : String × Document → Option (String × String),
      (∀ e ∈ es, read (e.1, .ofJson (.str e.2)) = some e) →
        (es.map fun e => (e.1, Document.ofJson (.str e.2))).mapM read = some es := by
    intro read hread
    rw [Document.mapM_map_eq_some (f := id) hread, List.map_id]
  rw [hmembers, decode?, htexts _ fun e _ => rfl]
  exact congrArg some (ofMembers_eq_self h)

/-- What is read has no repeated key. -/
theorem nodup_keys_of_decode? {d : Document} (h : decode? d = some es) : (keys es).Nodup := by
  cases d with
  | obj members =>
    obtain ⟨texts, -, h⟩ := Option.bind_eq_some_iff.mp h
    obtain rfl := Option.some.inj h
    exact nodup_keys_ofMembers texts
  | _ => cases h

end Entries
end Plotting
