import Mathlib.Algebra.BigOperators.Group.Finset.Basic

/-!
# What was observed last

A table of what was last observed of every key that was ever observed.  A new listing replaces
the entries of the keys it lists.

## Main definitions

* `Observed` — the keys ever observed, with their last values; any other key has zero.
* `Observed.observe` — a listing is observed.
* `Observed.total`, `Observed.unlisted` — the sum of all last values, and of those that a listing
  does not have.

## Main results

* `Observed.total_observe` — the total after a listing.
* `Observed.total_eq` — the total before it, by what is listed and what is not.
-/

/-- The last values of the keys that were ever observed. -/
structure Observed (κ M : Type) [Zero M] where
  ever : Finset κ
  last : κ → M
  unseen : ∀ k ∉ ever, last k = 0

namespace Observed

variable {κ M : Type} [DecidableEq κ]

section Observe

variable [Zero M] (o : Observed κ M) (listing : List (κ × M))

/-- Nothing is observed yet. -/
def none : Observed κ M := ⟨∅, fun _ => 0, fun _ _ => rfl⟩

/-- The value of a key in a listing, or else its last one. -/
def lastOf (k : κ) : M :=
  match listing.find? fun e => e.1 = k with
  | some e => e.2
  | .none => o.last k

theorem lastOf_of_mem (h : (listing.map Prod.fst).Nodup) {e : κ × M} (he : e ∈ listing) :
    o.lastOf listing e.1 = e.2 := by
  induction listing with
  | nil => simp at he
  | cons d listing ih =>
    rw [List.map_cons, List.nodup_cons] at h
    rcases List.mem_cons.mp he with rfl | he
    · simp [lastOf]
    · have hne : d.1 ≠ e.1 := fun heq => h.1 (heq ▸ List.mem_map_of_mem he)
      simpa [lastOf, List.find?_cons, hne] using ih h.2 he

theorem lastOf_of_not_mem {k : κ} (h : k ∉ listing.map Prod.fst) :
    o.lastOf listing k = o.last k := by
  have hnone : (listing.find? fun e => e.1 = k) = .none := by
    rw [List.find?_eq_none]
    intro e he heq
    exact h (List.mem_map.mpr ⟨e, he, by simpa using heq⟩)
  rw [lastOf, hnone]

/-- A listing is observed. -/
def observe : Observed κ M where
  ever := o.ever ∪ (listing.map Prod.fst).toFinset
  last := o.lastOf listing
  unseen := by
    intro k hk
    rw [Finset.mem_union, not_or, List.mem_toFinset] at hk
    rw [o.lastOf_of_not_mem listing hk.2]
    exact o.unseen k hk.1

end Observe

variable [AddCommMonoid M] (o : Observed κ M) (listing : List (κ × M))

/-- The sum of the last values of all keys. -/
def total : M := ∑ k ∈ o.ever, o.last k

/-- The sum of the last values of the keys that are not listed. -/
def unlisted : M := ∑ k ∈ o.ever \ (listing.map Prod.fst).toFinset, o.last k

/-- What is listed is added to what is not. -/
theorem total_observe (h : (listing.map Prod.fst).Nodup) :
    (o.observe listing).total = (listing.map Prod.snd).sum + o.unlisted listing := by
  have hlisted : ∑ k ∈ (listing.map Prod.fst).toFinset, o.lastOf listing k =
      (listing.map Prod.snd).sum := by
    rw [List.sum_toFinset _ h, List.map_map]
    congr 1
    refine List.map_congr_left ?_
    intro e he
    exact o.lastOf_of_mem listing h he
  have hrest : ∑ k ∈ o.ever \ (listing.map Prod.fst).toFinset, o.lastOf listing k =
      o.unlisted listing := by
    refine Finset.sum_congr rfl ?_
    intro k hk
    rw [Finset.mem_sdiff, List.mem_toFinset] at hk
    exact o.lastOf_of_not_mem listing hk.2
  have hall : (o.observe listing).total =
      ∑ k ∈ o.ever ∪ (listing.map Prod.fst).toFinset, o.lastOf listing k := rfl
  rw [hall, Finset.union_comm, ← Finset.union_sdiff_self_eq_union,
    Finset.sum_union Finset.disjoint_sdiff, hlisted, hrest]

/-- What the listed keys had before is added to what is not listed. -/
theorem total_eq (h : (listing.map Prod.fst).Nodup) :
    o.total = (listing.map fun e => o.last e.1).sum + o.unlisted listing := by
  have hlisted : (listing.map fun e => o.last e.1).sum =
      ∑ k ∈ (listing.map Prod.fst).toFinset, o.last k := by
    rw [List.sum_toFinset _ h, List.map_map]
    rfl
  have hall : o.total = ∑ k ∈ o.ever ∪ (listing.map Prod.fst).toFinset, o.last k := by
    refine Finset.sum_subset Finset.subset_union_left ?_
    intro k _ hk
    exact o.unseen k hk
  rw [hall, hlisted, Finset.union_comm, ← Finset.union_sdiff_self_eq_union,
    Finset.sum_union Finset.disjoint_sdiff, unlisted]

end Observed
