/-!
# JSON values

A value keeps whole numbers apart from doubles, and an object keeps its members
in a list, in the order in which they are written.  What other programs may
rely on as a value, free-form JSON, has its members sorted by key with no key
repeated; `Json.sorted` brings any member list into that form, and the last of
several members with one key is the one that counts.

Equality written `==` compares doubles as numbers, as for points.
-/

namespace Plotting

/-- A JSON value. -/
inductive Json where
  | null
  | bool (b : Bool)
  | int (n : Int)
  | float (x : Float)
  | str (s : String)
  | arr (items : List Json)
  | obj (members : List (String × Json))
deriving Repr, Inhabited

namespace Json

/-! ## Equality -/

mutual

/-- Whether two values are equal, doubles as numbers. -/
protected def beq : Json → Json → Bool
  | .null, .null => true
  | .bool a, .bool b => a == b
  | .int m, .int n => m == n
  | .float x, .float y => x == y
  | .str s, .str t => s == t
  | .arr as, .arr bs => Json.beqItems as bs
  | .obj ms, .obj ns => Json.beqMembers ms ns
  | _, _ => false

/-- Whether two lists of values are equal item by item. -/
protected def beqItems : List Json → List Json → Bool
  | [], [] => true
  | a :: as, b :: bs => Json.beq a b && Json.beqItems as bs
  | _, _ => false

/-- Whether two lists of members are equal, keys and values. -/
protected def beqMembers : List (String × Json) → List (String × Json) → Bool
  | [], [] => true
  | (k, a) :: ms, (l, b) :: ns => k == l && Json.beq a b && Json.beqMembers ms ns
  | _, _ => false

end

instance : BEq Json := ⟨Json.beq⟩

/-! ## Writing values -/

/-- A double; what is not a finite number is written as null. -/
def ofFloat (x : Float) : Json :=
  if x.isFinite then .float x else .null

/-- A natural number. -/
def ofNat (n : Nat) : Json := .int n

/-- A list, item by item. -/
def list {α : Type} (encode : α → Json) (items : List α) : Json :=
  .arr (items.map encode)

/-- The member of an object that is written only when there is a value. -/
def optional {α : Type} (key : String) (encode : α → Json) : Option α → List (String × Json)
  | none => []
  | some a => [(key, encode a)]

/-- The member of an object that is written only when the list is not empty. -/
def nonempty {α : Type} (key : String) (encode : α → Json) : List α → List (String × Json)
  | [] => []
  | a :: as => [(key, list encode (a :: as))]

/-! ## Free-form values -/

/-- Puts a member in front of sorted members, unless its key is there. -/
def place (key : String) (value : Json) : List (String × Json) → List (String × Json)
  | [] => [(key, value)]
  | m :: ms =>
    if key < m.1 then (key, value) :: m :: ms
    else if key = m.1 then m :: ms
    else m :: place key value ms

/-- The members sorted by key, of a repeated key the last one. -/
def sorted (members : List (String × Json)) : List (String × Json) :=
  members.foldr (fun m ms => place m.1 m.2 ms) []

@[simp] theorem sorted_nil : sorted [] = [] := rfl

@[simp] theorem sorted_cons (m : String × Json) (ms : List (String × Json)) :
    sorted (m :: ms) = place m.1 m.2 (sorted ms) := rfl

/-- Members that are in order stay as they are. -/
theorem sorted_eq_self {members : List (String × Json)}
    (h : members.Pairwise fun m n => m.1 < n.1) : sorted members = members := by
  induction members with
  | nil => rfl
  | cons m ms ih =>
    rw [List.pairwise_cons] at h
    rw [sorted_cons, ih h.2]
    cases ms with
    | nil => rfl
    | cons n ns => simp [place, h.1 n (by simp)]

end Json
end Plotting
