import Plotting.Computation
import Plotting.Graph

/-!
# Requests to a view

What a view is asked to render: a list of elements under a title, or a graph.
The input of a request may be an object that the caller holds on to and passes
again; such an object is known by its identity, and the same object is the same
input even if it holds a coordinate that is not a number and so does not equal
itself.
-/

namespace Plotting

/-- A value, and the identity of the object that holds it, if it is a shared
one. -/
structure Handle (α : Type) where
  identity : Option Nat
  value : α
deriving Repr

namespace Handle

variable {α : Type}

/-- A value that nobody else holds. -/
def fresh (value : α) : Handle α := ⟨none, value⟩

/-- Whether two handles hold one object. -/
def isSame (a b : Handle α) : Bool :=
  a.identity.isSome && a.identity == b.identity

/-- Whether two handles hold one object or equal ones. -/
def agrees [BEq α] (a b : Handle α) : Bool :=
  a.isSame b || a.value == b.value

end Handle

/-- What is to be rendered. -/
inductive Request where
  | elements (elements : Handle (List Element)) (title : Option String)
  | graph (graph : Handle Graph)
deriving Repr

namespace Request

/-- Whether two requests ask for one scene. -/
def agrees : Request → Request → Bool
  | .elements a s, .elements b t => s == t && a.agrees b
  | .graph a, .graph b => a.agrees b
  | _, _ => false

/-- The request to plot the elements of a computation, under no title. -/
def ofComputation (c : Computation) : Request :=
  .elements (.fresh c.plotElements) none

end Request
end Plotting
