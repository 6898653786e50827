/-!
# Bounded caches

A cache remembers answers under the questions they were given to.  Two questions
need not be equal to have one answer, so a cache is searched with a relation, and
the oldest entry that is related to the question answers it.  A cache that is
full is emptied before it takes another entry; one of capacity zero takes none.
-/

namespace Plotting

/-- The entries of a full list make room for a new one all at once. -/
def pushBounded {α : Type} (capacity : Nat) (entries : List α) (entry : α) : List α :=
  if capacity = 0 then entries
  else if capacity ≤ entries.length then [entry]
  else entries ++ [entry]

/-- The answer of the oldest entry that is related to a question. -/
def remembered? {κ β : Type} (agrees : κ → κ → Bool) (entries : List (κ × β)) (key : κ) :
    Option β :=
  (entries.find? fun e => agrees e.1 key).map Prod.snd

/-- Remembered answers, and how often there was one. -/
structure Cache (κ β : Type) where
  capacity : Nat
  entries : List (κ × β) := []
  hits : Nat := 0
  misses : Nat := 0

namespace Cache

variable {κ β : Type}

/-- The number of answers remembered. -/
def size (c : Cache κ β) : Nat := c.entries.length

/-- The cache after it had an answer. -/
def hit (c : Cache κ β) : Cache κ β :=
  { c with hits := c.hits + 1 }

/-- The cache after it had no answer and was told one. -/
def learn (c : Cache κ β) (key : κ) (answer : β) : Cache κ β :=
  { c with
    entries := pushBounded c.capacity c.entries (key, answer)
    misses := c.misses + 1 }

/-- The cache without its entries; what was counted stays. -/
def clear (c : Cache κ β) : Cache κ β :=
  { c with entries := [] }

end Cache

/-! ## The bound -/

/-- A list within its bound stays within it. -/
theorem length_pushBounded_le {α : Type} {capacity : Nat} {entries : List α} (entry : α)
    (h : entries.length ≤ capacity) : (pushBounded capacity entries entry).length ≤ capacity := by
  unfold pushBounded
  split
  · exact h
  · split <;> simp <;> omega

/-- What is recalled was remembered, under a question related to the one asked. -/
theorem mem_of_remembered?_eq_some {κ β : Type} {agrees : κ → κ → Bool} {entries : List (κ × β)}
    {key : κ} {answer : β} (h : remembered? agrees entries key = some answer) :
    ∃ old, (old, answer) ∈ entries ∧ agrees old key = true := by
  obtain ⟨⟨old, a⟩, he, rfl⟩ := Option.map_eq_some_iff.1 h
  exact ⟨old, List.mem_of_find?_eq_some he, by simpa using List.find?_some he⟩

end Plotting
