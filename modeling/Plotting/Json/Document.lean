import Plotting.Json.Basic

/-!
# JSON documents

A document is what a JSON text spells, before anything is made of it.  Objects
keep repeated keys, because a record refuses a repeat while a free-form value
takes the last.  And a well-formed text may spell something that is no value: a
number past the largest double, or a string with half a surrogate pair.  Such a
leaf is `unreadable`.  Wherever a value is asked for it is an error; inside a
member that nobody asks for, it passes unnoticed.
-/

namespace Plotting

/-- The tree of a JSON text. -/
inductive Document where
  | null
  | bool (b : Bool)
  | int (n : Int)
  | float (x : Float)
  | str (s : String)
  | arr (items : List Document)
  | obj (members : List (String × Document))
  /-- Well formed, but no value. -/
  | unreadable
deriving Repr, Inhabited

namespace Document

/-- The number of containers that may be nested in one another. -/
def maxNesting : Nat := 127

/-! ## Values as documents -/

mutual

/-- The document that a value is written as. -/
def ofJson : Json → Document
  | .null => .null
  | .bool b => .bool b
  | .int n => .int n
  | .float x => .float x
  | .str s => .str s
  | .arr items => .arr (ofItems items)
  | .obj members => .obj (ofMembers members)

/-- The documents of a list of values. -/
def ofItems : List Json → List Document
  | [] => []
  | j :: js => ofJson j :: ofItems js

/-- The documents of the members of an object. -/
def ofMembers : List (String × Json) → List (String × Document)
  | [] => []
  | (k, j) :: ms => (k, ofJson j) :: ofMembers ms

end

theorem ofItems_eq_map (items : List Json) : ofItems items = items.map ofJson := by
  induction items with
  | nil => rfl
  | cons j js ih => rw [ofItems, ih, List.map_cons]

theorem ofMembers_eq_map (members : List (String × Json)) :
    ofMembers members = members.map fun m => (m.1, ofJson m.2) := by
  induction members with
  | nil => rfl
  | cons m ms ih => rw [ofMembers, ih, List.map_cons]

/-! ## Documents as free-form values -/

mutual

/-- The free-form value of a document with at most `levels` nested containers. -/
def toJson? : Nat → Document → Option Json
  | _, .null => some .null
  | _, .bool b => some (.bool b)
  | _, .int n => some (.int n)
  | _, .float x => some (.float x)
  | _, .str s => some (.str s)
  | _, .unreadable => none
  | 0, .arr _ => none
  | 0, .obj _ => none
  | levels + 1, .arr items => (toItems? levels items).map .arr
  | levels + 1, .obj members => (toMembers? levels members).map fun ms => .obj (Json.sorted ms)

/-- The free-form values of a list of documents. -/
def toItems? : Nat → List Document → Option (List Json)
  | _, [] => some []
  | levels, d :: ds =>
    match toJson? levels d, toItems? levels ds with
    | some j, some js => some (j :: js)
    | _, _ => none

/-- The free-form values of the members of an object, in the order of the text. -/
def toMembers? : Nat → List (String × Document) → Option (List (String × Json))
  | _, [] => some []
  | levels, (k, d) :: ms =>
    match toJson? levels d, toMembers? levels ms with
    | some j, some js => some ((k, j) :: js)
    | _, _ => none

end

end Document
end Plotting
