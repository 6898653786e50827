import Plotting.Element.Basic

/-!
# Results of computations

The answer of a service that does mathematics: a status, a free-form payload,
the steps taken, formulas by name, and elements to be plotted.  Each entry of the
plotted elements is decoded by itself, and one that cannot be is dropped.
-/

namespace Plotting

/-- How a computation ended. -/
inductive Status where
  | ok
  | error
  /-- A status that nobody knows. -/
  | unknown
deriving DecidableEq, Repr

namespace Status

/-- The word for a status. -/
def name : Status → String
  | .ok => "ok"
  | .error => "error"
  | .unknown => "unknown"

/-- The status that a word stands for. -/
def ofName : String → Status
  | "ok" => .ok
  | "error" => .error
  | _ => .unknown

@[simp] theorem ofName_name (s : Status) : ofName s.name = s := by
  cases s <;> rfl

end Status

/-- Texts by key, in the order in which the keys first appeared. -/
abbrev Entries := List (String × String)

namespace Entries

/-- Gives a key a new value in its old place, or in the last if it is new. -/
def put (key value : String) : Entries → Entries
  | [] => [(key, value)]
  | e :: es => if e.1 = key then (key, value) :: es else e :: put key value es

/-- The entries after all members have been put, one after the other. -/
def ofMembers (members : List (String × String)) : Entries :=
  members.foldl (fun es m => put m.1 m.2 es) []

/-- The JSON form of entries, an object in their order. -/
def toJson (es : Entries) : Json :=
  .obj (es.map fun e => (e.1, .str e.2))

/-- Entries of an object all of whose values are texts. -/
def decode? : Document → Option Entries
  | .obj members => do
    let texts ← members.mapM fun (k, d) => d.str?.map fun s => (k, s)
    return ofMembers texts
  | _ => none

end Entries

/-- The result of a computation. -/
structure Computation where
  status : Status := .ok
  operation : String := ""
  payload : Json := .null
  steps : List String := []
  plotElements : List Element := []
  latex : Entries := []
deriving BEq, Repr

namespace Computation

/-- Whether the computation went well. -/
def isOk (c : Computation) : Bool := c.status == .ok

/-- The elements of a list of free-form values, without those that describe
none. -/
def elementsOfItems (levels : Nat) (items : List Json) : List Element :=
  items.filterMap fun j => Element.decode? levels (.ofJson j)

/-- The plotted elements, where each may hold `levels` nested containers. -/
def decodeElements? (levels : Nat) (d : Document) : Option (List Element) := do
  let items ← Document.nullable? (Document.list? (Document.toJson? levels)) d
  return elementsOfItems levels (items.getD [])

/-- The result of a computation that a document describes, if it describes any. -/
def decode? (d : Document) : Option Computation := do
  let r ← d.record? ["status", "operation", "payload", "steps", "plot_elements", "latex"]
  return {
    status := ← r.withDefault "status" .ok fun d => d.choice?.map Status.ofName
    operation := ← r.withDefault "operation" "" Document.str?
    payload := ← r.withDefault "payload" .null (Document.toJson? (Document.maxNesting - 1))
    steps := ← r.withDefault "steps" [] (Document.list? Document.str?)
    plotElements := ← r.withDefault "plot_elements" [] (decodeElements? (Document.maxNesting - 2))
    latex := ← r.withDefault "latex" [] Entries.decode? }

/-- The JSON form of the result of a computation. -/
def toJson (c : Computation) : Json :=
  .obj [("status", .str c.status.name), ("operation", .str c.operation), ("payload", c.payload),
    ("steps", Json.list .str c.steps), ("plot_elements", Json.list Element.toJson c.plotElements),
    ("latex", c.latex.toJson)]

/-- The result that a text describes. -/
def parse (text : String) (reader : NumberReader := .bestEffort) : Except PlotError Computation :=
  match (Document.parse? text reader).bind decode? with
  | some c => .ok c
  | none => .error (.data (.unreadable .computation))

end Computation
end Plotting
