import Mathlib.Data.List.Basic
import Mathlib.Tactic.Ring

/-!
# Taking turns around a list

Some items of a list are taken from a position on, and from the head where the end is reached.
Who goes on where the last turn ended comes round to every item.

## Main definitions

* `Rotation.turn` — the items of one turn.

## Main results

* `Rotation.mem_turn` — the items that a turn takes.
* `Rotation.exists_mem_turn` — every item is taken in enough turns, one after another.
-/

namespace Rotation

variable {α : Type} {items : List α} {start limit o : ℕ}

/-- The items of one turn. -/
def turn (items : List α) (start limit : ℕ) : List α :=
  let batch := (items.drop start).take limit
  if batch.length < limit then batch ++ items.take (limit - batch.length) else batch

/-- The item at some offset from the start. -/
theorem mem_turn (hstart : start < items.length) (hlimit : limit ≤ items.length) (ho : o < limit) :
    ∃ x ∈ turn items start limit, items[(start + o) % items.length]? = some x := by
  by_cases hwrap : start + o < items.length
  · refine ⟨items[start + o], ?_, ?_⟩
    · have hmem : items[start + o] ∈ (items.drop start).take limit := by
        rw [List.mem_take_iff_getElem]
        refine ⟨o, by simp; omega, ?_⟩
        simp
      simp only [turn]
      split_ifs
      · exact List.mem_append_left _ hmem
      · exact hmem
    · rw [Nat.mod_eq_of_lt hwrap]
      exact List.getElem?_eq_getElem hwrap
  · have hback : (start + o) % items.length = start + o - items.length := by
      rw [Nat.mod_eq_sub_mod (by omega), Nat.mod_eq_of_lt (by omega)]
    have hlt : start + o - items.length < items.length := by omega
    have hlength : ((items.drop start).take limit).length = items.length - start := by
      simp
      omega
    refine ⟨items[start + o - items.length], ?_, ?_⟩
    · simp only [turn, hlength]
      rw [if_pos (by omega)]
      refine List.mem_append_right _ ?_
      rw [List.mem_take_iff_getElem]
      exact ⟨start + o - items.length, by omega, rfl⟩
    · rw [hback]
      exact List.getElem?_eq_getElem hlt

/-- **Every item** is taken in enough turns, each of which starts where the last one ended. -/
theorem exists_mem_turn {k : ℕ} (hpos : 0 < limit) (hlimit : limit ≤ items.length)
    (hk : items.length ≤ k * limit) {x : α} (hx : x ∈ items) :
    ∃ i < k, x ∈ turn items ((start + i * limit) % items.length) limit := by
  obtain ⟨q, hq, rfl⟩ := List.getElem_of_mem hx
  -- how far the item is ahead of the first start
  obtain ⟨d, hd, hahead⟩ : ∃ d < items.length, (start + d) % items.length = q := by
    have hstart : start % items.length < items.length := Nat.mod_lt _ (by omega)
    by_cases hle : start % items.length ≤ q
    · refine ⟨q - start % items.length, by omega, ?_⟩
      have hsum : start % items.length + (q - start % items.length) = q := by omega
      rw [← Nat.mod_add_mod, hsum, Nat.mod_eq_of_lt hq]
    · refine ⟨q + items.length - start % items.length, by omega, ?_⟩
      have hsum : start % items.length + (q + items.length - start % items.length) =
          q + items.length := by omega
      rw [← Nat.mod_add_mod, hsum, Nat.add_mod_right, Nat.mod_eq_of_lt hq]
  refine ⟨d / limit, ?_, ?_⟩
  · exact Nat.div_lt_of_lt_mul (by rw [Nat.mul_comm]; omega)
  · have hturn := @mem_turn α items ((start + d / limit * limit) % items.length) limit (d % limit)
      (Nat.mod_lt _ (by omega)) hlimit (Nat.mod_lt _ hpos)
    obtain ⟨y, hy, hat⟩ := hturn
    have hsum : start + d / limit * limit + d % limit = start + d := by
      have hdiv := Nat.div_add_mod d limit
      rw [Nat.mul_comm] at hdiv
      omega
    rw [Nat.mod_add_mod, hsum, hahead, List.getElem?_eq_getElem hq] at hat
    obtain rfl := Option.some.inj hat
    exact hy

end Rotation
