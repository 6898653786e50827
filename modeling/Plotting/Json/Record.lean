import Plotting.Json.Document

/-!
# Decoding records

A record may be written as an object, whose members stand in any order, or as an
array of its fields in their declared order.  `Document.record?` brings both to
the object form: the fields named once at most, members of other names left
alone.  What a missing field means is for the field to say: it may be required,
have a default, or be optional, which null is too.

A decoder answers with a value or not at all; why a document does not fit is
nowhere asked.
-/

namespace Plotting
namespace Document

/-! ## Scalars and lists -/

/-- A string. -/
def str? : Document → Option String
  | .str s => some s
  | _ => none

/-- A truth value. -/
def bool? : Document → Option Bool
  | .bool b => some b
  | _ => none

/-- A number as a double. -/
def float? : Document → Option Float
  | .float x => some x
  | .int n => some (Float.ofInt n)
  | _ => none

/-- A natural number, written without point and exponent. -/
def nat? : Document → Option Nat
  | .int (.ofNat n) => some n
  | _ => none

/-- A natural number of 32 bits. -/
def word? (d : Document) : Option UInt32 :=
  match d.nat? with
  | some n => if n < Nat.pow 2 32 then some (.ofNat n) else none
  | none => none

/-- A list, every item of which has to fit. -/
def list? {α : Type} (decode : Document → Option α) : Document → Option (List α)
  | .arr items => items.mapM decode
  | _ => none

/-- A value or null. -/
def nullable? {α : Type} (decode : Document → Option α) : Document → Option (Option α)
  | .null => some none
  | d => (decode d).map some

/-- The name of a choice, written alone or as the key of an object with null. -/
def choice? : Document → Option String
  | .str s => some s
  | .obj [(s, .null)] => some s
  | _ => none

/-! ## Records -/

/-- The members of a record by name. -/
abbrev Record := List (String × Document)

/-- Whether the members name each field of the record once at most. -/
def namesOnce (fields : List String) (members : Record) : Bool :=
  fields.all fun f => members.countP (fun m => m.1 = f) ≤ 1

/-- The members of a document as a record with the given fields. -/
def record? (fields : List String) : Document → Option Record
  | .obj members => if namesOnce fields members then some members else none
  | .arr items => if items.length ≤ fields.length then some (fields.zip items) else none
  | _ => none

namespace Record

/-- A field that has to be there. -/
def required {α : Type} (r : Record) (field : String) (decode : Document → Option α) : Option α :=
  (r.lookup field).bind decode

/-- A field with a default. -/
def withDefault {α : Type} (r : Record) (field : String) (absent : α)
    (decode : Document → Option α) : Option α :=
  match r.lookup field with
  | none => some absent
  | some d => decode d

/-- A field that may be missing or null. -/
def optional {α : Type} (r : Record) (field : String) (decode : Document → Option α) :
    Option (Option α) :=
  r.withDefault field none (nullable? decode)

/-- A field whose value counts only if it fits; any other value, null included,
is as good as none. -/
def lenient {α : Type} (r : Record) (field : String) (absent : α)
    (decode : Document → Option α) : α :=
  ((r.lookup field).bind decode).getD absent

end Record

/-! ## Lists are read back item by item -/

theorem list?_ofJson_list {α : Type} {encode : α → Json} {decode : Document → Option α}
    {items : List α} (h : ∀ a ∈ items, decode (ofJson (encode a)) = some a) :
    list? decode (ofJson (Json.list encode items)) = some items := by
  have read : (items.map fun a => ofJson (encode a)).mapM decode = some items := by
    induction items with
    | nil => rfl
    | cons a as ih =>
      have tail := ih fun b hb => h b (List.mem_cons_of_mem a hb)
      simp [h a List.mem_cons_self, tail]
  simpa [Json.list, ofJson, ofItems_eq_map, list?, Function.comp_def] using read

end Document
end Plotting
