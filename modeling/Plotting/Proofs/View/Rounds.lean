import Mathlib
import Plotting.Proofs.View.Matching

/-!
# The last round of a bounded list

A bounded list that is emptied when it is full takes its entries in rounds: each round is as long as
the bound, and what the list holds is the round that was begun last.  Of `m` entries these are the
last `(m - 1) % capacity + 1`, by the order in which they came (`lastRound`).  One more entry makes
the last round of one more entry (`pushBounded_lastRound`), whether the round goes on or a new one
begins, and from that all else follows.

A cache has taken in exactly the questions that it missed.  `Cache.Holds` says so of a cache and the
questions missed since it was emptied, and adds that no question held would have been answered by
one held before it.
-/

namespace Plotting

/-! ## Rounds -/

/-- The entries that came since the round began to which the last of them belongs; without room
there are none. -/
def lastRound {α : Type} (capacity : ℕ) (entries : List α) : List α :=
  if capacity = 0 then [] else entries.rtake ((entries.length - 1) % capacity + 1)

section Rounds

variable {α : Type} {capacity : ℕ} {entries : List α}

@[simp] theorem lastRound_nil : lastRound capacity ([] : List α) = [] := by
  unfold lastRound
  split
  · rfl
  · exact List.rtake_nil _

theorem lastRound_zero : lastRound 0 entries = [] :=
  if_pos rfl

theorem length_lastRound (hcapacity : 0 < capacity) (hentries : entries ≠ []) :
    (lastRound capacity entries).length = (entries.length - 1) % capacity + 1 := by
  have hlength := List.length_pos_of_ne_nil hentries
  have hmod := Nat.mod_le (entries.length - 1) capacity
  rw [lastRound, if_neg hcapacity.ne', List.rtake, List.length_drop]
  omega

/-- One more entry goes on with the last round or, if that is complete, begins another. -/
theorem pushBounded_lastRound (capacity : ℕ) (entries : List α) (entry : α) :
    pushBounded capacity (lastRound capacity entries) entry =
      lastRound capacity (entries ++ [entry]) := by
  rcases Nat.eq_zero_or_pos capacity with rfl | hcapacity
  · rw [lastRound_zero, lastRound_zero]
    rfl
  · have hnext : lastRound capacity (entries ++ [entry]) =
        (entries ++ [entry]).rtake (entries.length % capacity + 1) := by
      rw [lastRound, if_neg hcapacity.ne', List.length_append, List.length_singleton,
        Nat.add_sub_cancel]
    rw [pushBounded, if_neg hcapacity.ne', hnext, List.rtake_concat_succ]
    by_cases hentries : entries = []
    · rw [hentries, lastRound_nil, List.length_nil, if_neg (Nat.not_le.mpr hcapacity),
        List.rtake_nil]
    · obtain ⟨n, hn⟩ := Nat.exists_eq_succ_of_ne_zero (List.length_pos_of_ne_nil hentries).ne'
      have hlength := length_lastRound hcapacity hentries
      have hmod : entries.length % capacity = (n % capacity + 1) % capacity := by
        rw [hn, Nat.mod_add_mod]
      rw [hn, Nat.succ_sub_one] at hlength
      rw [hlength, hmod]
      split
      · next hfull =>
        -- a complete round ends where the number of entries is a multiple of the bound
        have hcomplete : n % capacity + 1 = capacity :=
          Nat.le_antisymm (Nat.mod_lt _ hcapacity) hfull
        rw [hcomplete, Nat.mod_self, List.rtake_zero, List.nil_append]
      · next hroom =>
        rw [Nat.mod_eq_of_lt (Nat.lt_of_not_le hroom), lastRound, if_neg hcapacity.ne', hn,
          Nat.succ_sub_one]

/-- The round of some entries seen through a function is that of their images. -/
theorem map_pushBounded {β : Type} (f : α → β) (entry : α) :
    (pushBounded capacity entries entry).map f =
      pushBounded capacity (entries.map f) (f entry) := by
  unfold pushBounded
  rw [List.length_map]
  split
  · rfl
  · split
    · rfl
    · rw [List.map_append, List.map_singleton]

/-- Entries of which each is related to all that came later stay so, if all are related to the new
one. -/
theorem pairwise_pushBounded {R : α → α → Prop} {entry : α} (h : entries.Pairwise R)
    (hentry : ∀ e ∈ entries, R e entry) : (pushBounded capacity entries entry).Pairwise R := by
  unfold pushBounded
  split
  · exact h
  · split
    · exact List.pairwise_singleton R entry
    · refine List.pairwise_append.mpr ⟨h, List.pairwise_singleton R entry, fun e he e' he' => ?_⟩
      rw [List.mem_singleton.mp he']
      exact hentry e he

end Rounds

/-! ## Caches -/

section Caches

variable {κ β : Type} {agrees : κ → κ → Bool} {entries : List (κ × β)} {key : κ} {answer : β}

/-- There is an answer if one of the questions held is related to the one asked. -/
theorem isSome_remembered? :
    (remembered? agrees entries key).isSome = (entries.map Prod.fst).any (agrees · key) := by
  rw [remembered?, Option.isSome_map, List.isSome_find?, List.any_map]
  rfl

theorem not_agrees_of_remembered?_eq_none (h : remembered? agrees entries key = none) :
    ∀ k ∈ entries.map Prod.fst, agrees k key = false := by
  have hnone : (entries.map Prod.fst).any (agrees · key) = false := by
    rw [← isSome_remembered?, h, Option.isSome_none]
  exact fun k hk => Bool.not_eq_true _ ▸ List.any_eq_false.mp hnone k hk

namespace Cache

/-- The cache holds the last round of the questions that it missed, and no two of them are
related. -/
structure Holds (agrees : κ → κ → Bool) (c : Cache κ β) (missed : List κ) : Prop where
  keys : c.entries.map Prod.fst = lastRound c.capacity missed
  apart : (c.entries.map Prod.fst).Pairwise fun a b => agrees a b = false

variable {c : Cache κ β} {missed : List κ}

/-- An empty cache holds what is left of no questions. -/
theorem Holds.of_empty (h : c.entries = []) : c.Holds agrees [] := by
  refine ⟨?_, ?_⟩ <;> rw [h]
  · exact lastRound_nil.symm
  · exact .nil

theorem Holds.hit (h : c.Holds agrees missed) : c.hit.Holds agrees missed :=
  ⟨h.keys, h.apart⟩

/-- Where the relation is symmetric, no question held is related to another. -/
theorem Holds.pairwise (h : c.Holds agrees missed)
    (hsymm : ∀ {a b}, agrees a b = true → agrees b a = true) :
    (c.entries.map Prod.fst).Pairwise fun a b => agrees a b = false ∧ agrees b a = false := by
  refine h.apart.imp fun hab => ⟨hab, Bool.eq_false_iff.mpr fun hba => ?_⟩
  rw [hsymm hba] at hab
  cases hab

/-- A question that was missed is held from then on. -/
theorem Holds.learn (h : c.Holds agrees missed) (hmiss : remembered? agrees c.entries key = none)
    (answer : β) : (c.learn key answer).Holds agrees (missed ++ [key]) where
  keys := by
    rw [Cache.learn, map_pushBounded, h.keys, pushBounded_lastRound]
  apart := by
    rw [Cache.learn, map_pushBounded]
    exact pairwise_pushBounded h.apart (not_agrees_of_remembered?_eq_none hmiss)

end Cache
end Caches
end Plotting
