import WolfNas.Lib.Dict
import Mathlib.Data.Set.Card
import Mathlib.Logic.Function.Basic

/-!
# Dropping what is least recently used

A map of bounded size that drops the key whose last use is longest ago, said with the times of
the uses, and a dictionary that keeps its keys in the order of their last use, which does the
same.

## Main definitions

* `LruMap` — what is held under a key, and when each key was last used.
* `LruMap.LeastUsed`, `LruMap.evict` — the key that is dropped.
* `LruMap.put`, `LruMap.touch`, `LruMap.remove` — writing, using and removing a key.
* `LruMap.Tracks` — a dictionary holds the same, in the order of the last uses.

## Main results

* `LruMap.Tracks.put`, `LruMap.Tracks.touch`, `LruMap.Tracks.remove` — the dictionary follows each
  operation.
-/

/-- What is held, and when each key was last used. -/
structure LruMap (κ ν : Type) where
  held : κ → Option ν
  used : κ → ℕ
  clock : ℕ

namespace LruMap

variable {κ ν : Type} [DecidableEq κ]

/-- Nothing is held. -/
def empty : LruMap κ ν := ⟨fun _ => none, fun _ => 0, 0⟩

/-- The keys under which something is held. -/
def keys (m : LruMap κ ν) : Set κ := {k | m.held k ≠ none}

/-- No key that is held was last used earlier. -/
def LeastUsed (m : LruMap κ ν) (k : κ) : Prop := k ∈ m.keys ∧ ∀ k' ∈ m.keys, m.used k ≤ m.used k'

open Classical in
/-- What is least recently used is dropped. -/
noncomputable def evict (m : LruMap κ ν) : LruMap κ ν :=
  { m with held := fun k => if m.LeastUsed k then none else m.held k }

/-- There is room for one more of `n`. -/
noncomputable def makeRoom (m : LruMap κ ν) (n : ℕ) : LruMap κ ν :=
  if n ≤ m.keys.ncard then m.evict else m

/-- A key is removed. -/
def remove (m : LruMap κ ν) (k : κ) : LruMap κ ν := { m with held := Function.update m.held k none }

/-- A key is used. -/
def touch (m : LruMap κ ν) (k : κ) : LruMap κ ν :=
  { m with used := Function.update m.used k m.clock, clock := m.clock + 1 }

/-- A value is written under a key that is not held. -/
def add (m : LruMap κ ν) (k : κ) (v : ν) : LruMap κ ν :=
  { m.touch k with held := Function.update m.held k (some v) }

/-- A value is written under a key, in a map of at most `n`. -/
noncomputable def put (m : LruMap κ ν) (n : ℕ) (k : κ) (v : ν) : LruMap κ ν :=
  ((m.remove k).makeRoom n).add k v

/-- The dictionary holds the same, the keys in the order of their last use. -/
structure Tracks (d : Dict κ ν) (m : LruMap κ ν) : Prop where
  reads : ∀ k, d.get k = m.held k
  order : d.keys.Pairwise fun k k' => m.used k < m.used k'
  before : ∀ k ∈ d.keys, m.used k < m.clock

namespace Tracks

variable {d : Dict κ ν} {m : LruMap κ ν} {k : κ} {v : ν} {n : ℕ}

theorem empty : Tracks (Dict.empty : Dict κ ν) LruMap.empty where
  reads _ := rfl
  order := List.Pairwise.nil
  before := by simp [Dict.keys, Dict.empty]

theorem mem_keys_iff (h : Tracks d m) : k ∈ m.keys ↔ k ∈ d.keys := by
  rw [Dict.mem_keys_iff, h.reads]
  rfl

/-- As many keys are held as there are entries. -/
theorem ncard_keys (h : Tracks d m) : m.keys.ncard = d.entries.length := by
  have hkeys : m.keys = (d.keys.toFinset : Set κ) := by
    ext k
    rw [h.mem_keys_iff, Finset.mem_coe, List.mem_toFinset]
  have hnodup : d.keys.Nodup := d.nodup
  rw [hkeys, Set.ncard_coe_finset, List.toFinset_card_of_nodup hnodup, Dict.keys, List.length_map]

/-- What is least recently used is the oldest entry. -/
theorem leastUsed_iff (h : Tracks d m) {e : κ × ν} {l : List (κ × ν)} (he : d.entries = e :: l) :
    m.LeastUsed k ↔ k = e.1 := by
  have hkeys : d.keys = e.1 :: l.map Prod.fst := by rw [Dict.keys, he, List.map_cons]
  have horder := h.order
  rw [hkeys, List.pairwise_cons] at horder
  simp only [LeastUsed, h.mem_keys_iff, hkeys, List.mem_cons]
  constructor
  · rintro ⟨hk | hk, hle⟩
    · exact hk
    · exact absurd (hle e.1 (.inl rfl)) (not_le.mpr (horder.1 k hk))
  · rintro rfl
    refine ⟨.inl rfl, ?_⟩
    rintro k' (rfl | hk')
    · exact le_rfl
    · exact (horder.1 k' hk').le

theorem remove (h : Tracks d m) (k : κ) : Tracks (d.erase k) (m.remove k) := by
  have hsublist : (d.erase k).keys.Sublist d.keys := List.filter_sublist.map Prod.fst
  refine ⟨?_, h.order.sublist hsublist, fun k' hk' => h.before k' (hsublist.subset hk')⟩
  intro x
  simp only [Dict.get_erase, LruMap.remove, Function.update_apply, h.reads]

theorem evict (h : Tracks d m) (hne : d.entries ≠ []) : Tracks d.dropOldest m.evict := by
  obtain ⟨e, l, he⟩ := List.exists_cons_of_ne_nil hne
  have hsublist : d.dropOldest.keys.Sublist d.keys := (List.tail_sublist d.entries).map Prod.fst
  refine ⟨?_, h.order.sublist hsublist, fun k' hk' => h.before k' (hsublist.subset hk')⟩
  intro x
  have hread : d.dropOldest.get x = if x = e.1 then none else d.get x := by
    have htail : d.dropOldest.get x = l.lookup x := by
      rw [Dict.get]
      exact congrArg (List.lookup x) (by rw [Dict.dropOldest]; simp [he])
    rw [htail, Dict.get, he]
    obtain ⟨k', v'⟩ := e
    by_cases hx : x = k'
    · subst hx
      have hnot : x ∉ l.map Prod.fst := by
        have hnodup := d.nodup
        rw [he, List.map_cons, List.nodup_cons] at hnodup
        exact hnodup.1
      rw [if_pos rfl, List.lookup_eq_none_iff]
      intro p hp
      rw [bne_iff_ne]
      rintro rfl
      exact hnot (List.mem_map_of_mem hp)
    · rw [if_neg hx, List.lookup_cons, beq_eq_false_iff_ne.mpr hx]
  rw [hread, LruMap.evict, h.reads]
  simp only [h.leastUsed_iff he]

theorem makeRoom (h : Tracks d m) (hpos : 0 < n) :
    Tracks (if n ≤ d.entries.length then d.dropOldest else d) (m.makeRoom n) := by
  rw [LruMap.makeRoom, h.ncard_keys]
  split_ifs with hfull
  · exact h.evict (List.ne_nil_of_length_pos (hpos.trans_le hfull))
  · exact h

theorem keys_moveToEnd (hk : k ∈ d.keys) : (d.moveToEnd k).keys = (d.erase k).keys ++ [k] := by
  have hlast : (d.entries.filter fun e => !decide (e.1 ≠ k)).map Prod.fst = [k] := by
    have hcount : d.keys.count k = 1 := List.count_eq_one_of_mem d.nodup hk
    have hfilter : (d.entries.filter fun e => !decide (e.1 ≠ k)).map Prod.fst =
        d.keys.filter fun k' => k' = k := by
      rw [Dict.keys, List.filter_map]
      refine congrArg (List.map Prod.fst) (List.filter_congr fun e _ => ?_)
      simp
    rw [hfilter, List.filter_eq, hcount, List.replicate_one]
  exact (List.map_append).trans (congrArg ((d.erase k).keys ++ ·) hlast)

/-- A key that is added or used stands at the end, and was used last. -/
theorem order_touch (h : Tracks d m) (hk : k ∉ d.keys) :
    (d.keys ++ [k]).Pairwise (fun x y => (m.touch k).used x < (m.touch k).used y) ∧
      ∀ x ∈ d.keys ++ [k], (m.touch k).used x < (m.touch k).clock := by
  have hold : ∀ x ∈ d.keys, (m.touch k).used x = m.used x := by
    intro x hx
    have hne : x ≠ k := fun heq => hk (heq ▸ hx)
    exact Function.update_of_ne hne _ _
  have hnew : (m.touch k).used k = m.clock := Function.update_self ..
  refine ⟨List.pairwise_append.mpr ⟨?_, List.pairwise_singleton _ k, ?_⟩, ?_⟩
  · refine h.order.imp_of_mem ?_
    intro x y hx hy hxy
    rwa [hold x hx, hold y hy]
  · intro x hx y hy
    rw [List.mem_singleton.mp hy, hold x hx, hnew]
    exact h.before x hx
  · intro x hx
    have hclock : (m.touch k).clock = m.clock + 1 := rfl
    rw [hclock]
    rcases List.mem_append.mp hx with hx | hx
    · rw [hold x hx]
      exact (h.before x hx).trans (Nat.lt_succ_self _)
    · rw [List.mem_singleton.mp hx, hnew]
      exact Nat.lt_succ_self _

theorem touch (h : Tracks d m) (hk : k ∈ d.keys) : Tracks (d.moveToEnd k) (m.touch k) := by
  have hnot : k ∉ (d.erase k).keys := by simp [Dict.keys, Dict.erase]
  have horder := (h.remove k).order_touch hnot
  rw [← keys_moveToEnd hk] at horder
  refine ⟨?_, horder.1, horder.2⟩
  intro x
  rw [Dict.get_moveToEnd, h.reads]
  rfl

theorem add (h : Tracks d m) (hk : k ∉ d.keys) : Tracks (d.set k v) (m.add k v) := by
  have hkeys : (d.set k v).keys = d.keys ++ [k] := by
    rw [Dict.keys, Dict.entries_set_of_not_mem hk, List.map_append]
    rfl
  have horder := h.order_touch hk
  rw [← hkeys] at horder
  refine ⟨?_, horder.1, horder.2⟩
  intro x
  simp only [Dict.get_set, LruMap.add, Function.update_apply, h.reads]

/-- Writing under a key: it is removed, the oldest entry is dropped where there is no room, and the
new entry stands at the end. -/
theorem put (h : Tracks d m) (hpos : 0 < n) :
    Tracks ((if n ≤ (d.erase k).entries.length then (d.erase k).dropOldest else d.erase k).set k v)
      (m.put n k v) := by
  have hroom := (h.remove k).makeRoom hpos
  refine hroom.add ?_
  have hnot : k ∉ (d.erase k).keys := by simp [Dict.keys, Dict.erase]
  split_ifs
  · exact fun hk => hnot (((List.tail_sublist _).map Prod.fst).subset hk)
  · exact hnot

end Tracks

end LruMap
