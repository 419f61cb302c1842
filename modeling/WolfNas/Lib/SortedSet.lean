import Mathlib.Data.List.Basic
import Mathlib.Data.List.Dedup
import Mathlib.Data.List.Sort
import Mathlib.Order.Bounds.Basic

/-!
# Sets kept as lists

Sets are kept as lists; where the order of their members is looked at, they are sorted.  Of two
filters of such a list, the narrower one may keep as much as the wider one, or at least the
greatest.

## Main definitions

* `sortedSet` — the members of a list, each once, in order.

## Main results

* `isLeast_of_head?_sortedSet` — the first one is the least.
* `sortedSet_congr` — the members decide what the sorted set is.
* `List.map_filter_eq_map_filter_iff` — when the narrower one of two filters keeps as much.
* `List.max?_filter_eq_iff` — when it keeps the greatest.
-/

/-- `sorted(set(values))`. -/
def sortedSet {α : Type} [DecidableEq α] [LE α] [DecidableLE α] (values : List α) : List α :=
  values.dedup.insertionSort (· ≤ ·)

@[simp] theorem mem_sortedSet {α : Type} [DecidableEq α] [LE α] [DecidableLE α] {l : List α}
    {n : α} : n ∈ sortedSet l ↔ n ∈ l := by
  simp [sortedSet, List.mem_insertionSort]

/-- The first element of a sorted set that is filtered is the least of those that are kept. -/
theorem isLeast_of_head?_sortedSet {α : Type} [LinearOrder α] {l : List α} {p : α → Bool} {n : α}
    (h : ((sortedSet l).filter p).head? = some n) : IsLeast {m | m ∈ (sortedSet l).filter p} n := by
  have hsorted : ((sortedSet l).filter p).Pairwise (· ≤ ·) :=
    (List.pairwise_insertionSort _ _).filter _
  cases hl : (sortedSet l).filter p with
  | nil => simp [hl] at h
  | cons m ms =>
    rw [hl] at h hsorted
    obtain rfl : m = n := by simpa using h
    refine ⟨List.mem_cons_self, ?_⟩
    intro k hk
    rcases List.mem_cons.mp hk with rfl | hk
    · exact le_rfl
    · exact List.rel_of_pairwise_cons hsorted hk

/-- Lists with the same members have the same sorted set. -/
theorem sortedSet_congr {α : Type} [LinearOrder α] {l l' : List α} (h : ∀ n, n ∈ l ↔ n ∈ l') :
    sortedSet l = sortedSet l' := by
  have hperm : (sortedSet l).Perm (sortedSet l') := by
    refine (List.perm_insertionSort _ _).trans ?_
    refine List.Perm.trans ?_ (List.perm_insertionSort _ _).symm
    refine (List.perm_ext_iff_of_nodup (List.nodup_dedup l) (List.nodup_dedup l')).mpr ?_
    intro n
    rw [List.mem_dedup, List.mem_dedup, h]
  exact hperm.eq_of_pairwise (fun _ _ _ _ => le_antisymm) (List.pairwise_insertionSort _ _)
    (List.pairwise_insertionSort _ _)

/-! ## Two filters, one narrower than the other -/

namespace List

variable {α β : Type} {p q : α → Bool} {l : List α}

/-- Of two filters, the narrower one keeps as much as the wider one. -/
theorem map_filter_eq_map_filter_iff (f : α → β) (h : ∀ a ∈ l, p a → q a) :
    (l.filter p).map f = (l.filter q).map f ↔ ∀ a ∈ l, q a → p a := by
  constructor
  · intro hsame a ha hq
    have hlength : (l.filter p).length = (l.filter q).length := by
      simpa using congrArg List.length hsame
    have hnarrow : l.filter p = (l.filter q).filter p := by
      rw [List.filter_filter]
      refine List.filter_congr fun b hb => ?_
      rw [Bool.eq_iff_iff, Bool.and_eq_true]
      exact ⟨fun hp => ⟨hp, h b hb hp⟩, And.left⟩
    rw [hnarrow, List.length_filter_eq_length_iff] at hlength
    exact hlength a (List.mem_filter.mpr ⟨ha, hq⟩)
  · intro hwide
    congr 1
    refine List.filter_congr fun a ha => ?_
    rw [Bool.eq_iff_iff]
    exact ⟨h a ha, hwide a ha⟩

/-- Of two filters, the narrower one keeps the greatest that the wider one keeps. -/
theorem max?_filter_eq_iff {f : α → ℕ} (hinj : ∀ a ∈ l, ∀ b ∈ l, f a = f b → a = b)
    (h : ∀ a ∈ l, p a → q a) :
    ((l.filter p).map f).max? = ((l.filter q).map f).max? ↔
      ∀ a ∈ l, q a → (∀ b ∈ l, q b → f b ≤ f a) → p a := by
  constructor
  · intro hsame a ha hq hgreatest
    have hmax : ((l.filter q).map f).max? = some (f a) := by
      refine List.max?_eq_some_iff.mpr ⟨List.mem_map_of_mem (List.mem_filter.mpr ⟨ha, hq⟩), ?_⟩
      intro n hn
      obtain ⟨b, hb, rfl⟩ := List.mem_map.mp hn
      exact hgreatest b (List.mem_filter.mp hb).1 (List.mem_filter.mp hb).2
    have hmem := (List.max?_eq_some_iff.mp (hsame.trans hmax)).1
    obtain ⟨b, hb, hab⟩ := List.mem_map.mp hmem
    have hb' := List.mem_filter.mp hb
    exact hinj b hb'.1 a ha hab ▸ hb'.2
  · intro hwide
    cases hmax : ((l.filter q).map f).max? with
    | none =>
      have hnone : l.filter q = [] := List.map_eq_nil_iff.mp (List.max?_eq_none_iff.mp hmax)
      have hnone' : l.filter p = [] := by
        refine List.filter_eq_nil_iff.mpr fun a ha hp => ?_
        exact List.filter_eq_nil_iff.mp hnone a ha (h a ha hp)
      rw [hnone', List.map_nil, List.max?_nil]
    | some n =>
      have hn := List.max?_eq_some_iff.mp hmax
      obtain ⟨a, ha, rfl⟩ := List.mem_map.mp hn.1
      have ha' := List.mem_filter.mp ha
      have hgreatest : ∀ b ∈ l, q b → f b ≤ f a := fun b hb hqb =>
        hn.2 _ (List.mem_map_of_mem (List.mem_filter.mpr ⟨hb, hqb⟩))
      have hp := hwide a ha'.1 ha'.2 hgreatest
      refine List.max?_eq_some_iff.mpr
        ⟨List.mem_map_of_mem (List.mem_filter.mpr ⟨ha'.1, hp⟩), ?_⟩
      intro n hn
      obtain ⟨b, hb, rfl⟩ := List.mem_map.mp hn
      have hb' := List.mem_filter.mp hb
      exact hgreatest b hb'.1 (h b hb'.1 hb'.2)

end List
