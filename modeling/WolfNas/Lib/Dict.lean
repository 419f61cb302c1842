import Mathlib.Data.List.Nodup

/-!
# Dictionaries in insertion order

A dictionary keeps its entries in the order their keys were first set, as the dictionaries of
the verified code do.  The keys are distinct by construction.

## Main definitions

* `Dict κ ν` — a dictionary, with its distinct keys.
* `Dict.get`, `Dict.set`, `Dict.update` — reading and writing one key, and writing several.
* `Dict.keys` — the keys, in order.
* `Dict.erase`, `Dict.dropOldest`, `Dict.keepOnly` — removing a key, the oldest one, or some.
* `Dict.moveToEnd` — making a key the newest.

## Main results

* `Dict.get_set`, `Dict.get_erase`, `Dict.get_moveToEnd`, `Dict.get_of_dropOldest` — what is read
  after a change.
* `Dict.length_set_le`, `Dict.length_erase_le`, `Dict.length_moveToEnd` — how many entries there
  are after it.
-/

/-- A dictionary in insertion order. -/
structure Dict (κ ν : Type) where
  /-- The entries, oldest key first. -/
  entries : List (κ × ν)
  /-- No key stands twice. -/
  nodup : (entries.map Prod.fst).Nodup

namespace Dict

variable {κ ν : Type} [DecidableEq κ]

instance [DecidableEq ν] : DecidableEq (Dict κ ν) := fun d d' =>
  decidable_of_iff (d.entries = d'.entries) (by cases d; cases d'; simp)

/-- The empty dictionary. -/
def empty : Dict κ ν := ⟨[], List.nodup_nil⟩

/-- The keys, oldest first. -/
def keys (d : Dict κ ν) : List κ := d.entries.map Prod.fst

/-- The value of a key. -/
def get (d : Dict κ ν) (k : κ) : Option ν := d.entries.lookup k

/-- INTERNAL: `set` on the entries. -/
private def setEntries (k : κ) (v : ν) : List (κ × ν) → List (κ × ν)
  | [] => [(k, v)]
  | (k', v') :: l => if k' = k then (k, v) :: l else (k', v') :: setEntries k v l

private theorem mem_fst_setEntries {k x : κ} {v : ν} {l : List (κ × ν)} :
    x ∈ (setEntries k v l).map Prod.fst ↔ x = k ∨ x ∈ l.map Prod.fst := by
  induction l with
  | nil => simp [setEntries]
  | cons e l ih =>
    obtain ⟨k', v'⟩ := e
    by_cases h : k' = k
    · simp [setEntries, h]
    · simp only [setEntries, if_neg h, List.map_cons, List.mem_cons, ih]
      exact or_left_comm

private theorem nodup_setEntries {k : κ} {v : ν} {l : List (κ × ν)}
    (h : (l.map Prod.fst).Nodup) : ((setEntries k v l).map Prod.fst).Nodup := by
  induction l with
  | nil => simp [setEntries]
  | cons e l ih =>
    obtain ⟨k', v'⟩ := e
    simp only [List.map_cons, List.nodup_cons] at h
    by_cases hk : k' = k
    · subst hk
      simpa [setEntries] using h
    · simp only [setEntries, if_neg hk, List.map_cons, List.nodup_cons, mem_fst_setEntries, not_or]
      exact ⟨⟨hk, h.1⟩, ih h.2⟩

/-- Writing a key: in its place where it is there, at the end where it is new. -/
def set (d : Dict κ ν) (k : κ) (v : ν) : Dict κ ν :=
  ⟨setEntries k v d.entries, nodup_setEntries d.nodup⟩

/-- What is written under a key is read under it, and nothing else changes. -/
theorem get_set (d : Dict κ ν) (k x : κ) (v : ν) :
    (d.set k v).get x = if x = k then some v else d.get x := by
  have hentries : ∀ l : List (κ × ν),
      (setEntries k v l).lookup x = if x = k then some v else l.lookup x := by
    intro l
    induction l with
    | nil =>
      by_cases hx : x = k
      · simp [setEntries, hx]
      · simp [setEntries, List.lookup_cons, beq_eq_false_iff_ne.mpr hx, hx]
    | cons e l ih =>
      obtain ⟨k', v'⟩ := e
      by_cases hk : k' = k
      · subst hk
        by_cases hx : x = k'
        · simp [setEntries, hx]
        · simp [setEntries, List.lookup_cons, beq_eq_false_iff_ne.mpr hx, hx]
      · by_cases hx : x = k'
        · subst hx
          simp [setEntries, hk]
        · simp [setEntries, hk, List.lookup_cons, ih, beq_eq_false_iff_ne.mpr hx]
  exact hentries d.entries

@[simp] theorem get_set_self (d : Dict κ ν) (k : κ) (v : ν) : (d.set k v).get k = some v := by
  simp [get_set]

/-- `update`: the entries of the list are written one after another. -/
def update (d : Dict κ ν) (l : List (κ × ν)) : Dict κ ν := l.foldl (fun d e => d.set e.1 e.2) d

theorem get_update_of_not_mem {d : Dict κ ν} {l : List (κ × ν)} {k : κ} (h : k ∉ l.map Prod.fst) :
    (d.update l).get k = d.get k := by
  induction l generalizing d with
  | nil => rfl
  | cons e l ih =>
    rw [List.map_cons, List.mem_cons, not_or] at h
    rw [update, List.foldl_cons]
    exact (ih h.2).trans (by rw [get_set, if_neg h.1])

/-- What is written once is read. -/
theorem get_update_of_mem {d : Dict κ ν} {l : List (κ × ν)} {k : κ} {v : ν}
    (hl : (l.map Prod.fst).Nodup) (h : (k, v) ∈ l) : (d.update l).get k = some v := by
  induction l generalizing d with
  | nil => cases h
  | cons e l ih =>
    rw [List.map_cons, List.nodup_cons] at hl
    rw [update, List.foldl_cons]
    rcases List.mem_cons.mp h with rfl | h
    · exact (get_update_of_not_mem hl.1).trans (get_set_self _ _ _)
    · exact ih hl.2 h

/-- A new key stands at the end. -/
theorem entries_set_of_not_mem {d : Dict κ ν} {k : κ} (h : k ∉ d.keys) (v : ν) :
    (d.set k v).entries = d.entries ++ [(k, v)] := by
  have hentries : ∀ l : List (κ × ν), k ∉ l.map Prod.fst → setEntries k v l = l ++ [(k, v)] := by
    intro l
    induction l with
    | nil => intro _; rfl
    | cons e l ih =>
      intro hl
      obtain ⟨k', v'⟩ := e
      rw [List.map_cons, List.mem_cons, not_or] at hl
      rw [setEntries, if_neg (Ne.symm hl.1), ih hl.2, List.cons_append]
  exact hentries d.entries h

@[simp] theorem mem_keys_set {d : Dict κ ν} {k x : κ} {v : ν} :
    x ∈ (d.set k v).keys ↔ x = k ∨ x ∈ d.keys := mem_fst_setEntries

/-! ## Removing keys -/

theorem lookup_of_mem {l : List (κ × ν)} (hl : (l.map Prod.fst).Nodup) {k : κ} {v : ν}
    (h : (k, v) ∈ l) : l.lookup k = some v := by
  induction l with
  | nil => cases h
  | cons e l ih =>
    obtain ⟨k', v'⟩ := e
    rw [List.map_cons, List.nodup_cons] at hl
    rcases List.mem_cons.mp h with heq | hmem
    · cases heq
      simp
    · have hne : k ≠ k' := by
        intro heq
        subst heq
        exact hl.1 (List.mem_map.mpr ⟨(k, v), hmem, rfl⟩)
      rw [List.lookup_cons, beq_eq_false_iff_ne.mpr hne]
      exact ih hl.2 hmem

theorem mem_of_lookup {l : List (κ × ν)} {k : κ} {v : ν} (h : l.lookup k = some v) :
    (k, v) ∈ l := by
  obtain ⟨l₁, l₂, rfl, -⟩ := List.lookup_eq_some_iff.mp h
  simp

/-- The entries are what is read. -/
theorem mem_entries_iff {d : Dict κ ν} {k : κ} {v : ν} : (k, v) ∈ d.entries ↔ d.get k = some v :=
  ⟨lookup_of_mem d.nodup, mem_of_lookup⟩

/-- `del d[k]`. -/
def erase (d : Dict κ ν) (k : κ) : Dict κ ν :=
  ⟨d.entries.filter fun e => e.1 ≠ k, d.nodup.sublist (List.filter_sublist.map Prod.fst)⟩

/-- A key that is removed is not read, and nothing else changes. -/
theorem get_erase (d : Dict κ ν) (k x : κ) :
    (d.erase k).get x = if x = k then none else d.get x := by
  refine Option.ext fun v => ?_
  rw [← mem_entries_iff]
  change (x, v) ∈ d.entries.filter _ ↔ _
  rw [List.mem_filter, mem_entries_iff]
  by_cases hx : x = k
  · simp [hx]
  · simp [hx]

/-- The oldest entry is removed. -/
def dropOldest (d : Dict κ ν) : Dict κ ν :=
  ⟨d.entries.tail, d.nodup.sublist ((List.tail_sublist d.entries).map Prod.fst)⟩

/-- What is still read was read before. -/
theorem get_of_dropOldest {d : Dict κ ν} {x : κ} {v : ν} (h : d.dropOldest.get x = some v) :
    d.get x = some v :=
  mem_entries_iff.mp (List.mem_of_mem_tail (mem_entries_iff.mpr h))

theorem mem_keys_iff {d : Dict κ ν} {k : κ} : k ∈ d.keys ↔ d.get k ≠ none := by
  rw [keys, List.mem_map, ne_eq, Option.eq_none_iff_forall_ne_some, not_forall]
  constructor
  · rintro ⟨⟨k', v⟩, hmem, rfl⟩
    exact ⟨v, not_not.mpr (mem_entries_iff.mp hmem)⟩
  · rintro ⟨v, hv⟩
    exact ⟨(k, v), mem_entries_iff.mpr (not_not.mp hv), rfl⟩

/-- The entries that are kept. -/
def keepOnly (d : Dict κ ν) (p : κ × ν → Bool) : Dict κ ν :=
  ⟨d.entries.filter p, d.nodup.sublist (List.filter_sublist.map Prod.fst)⟩

omit [DecidableEq κ] in
theorem keepOnly_eq_self {d : Dict κ ν} {p : κ × ν → Bool} (h : ∀ e ∈ d.entries, p e = true) :
    d.keepOnly p = d := by
  cases d
  rw [keepOnly, Dict.mk.injEq]
  exact List.filter_eq_self.mpr h

/-- What is still read was read before. -/
theorem get_of_keepOnly {d : Dict κ ν} {p : κ × ν → Bool} {x : κ} {v : ν}
    (h : (d.keepOnly p).get x = some v) : d.get x = some v :=
  mem_entries_iff.mp (List.mem_filter.mp (mem_entries_iff.mpr h)).1

/-! ## The order of the entries -/

/-- `move_to_end(k)`. -/
def moveToEnd (d : Dict κ ν) (k : κ) : Dict κ ν :=
  ⟨(d.entries.filter fun e => e.1 ≠ k) ++ d.entries.filter fun e => !decide (e.1 ≠ k),
    ((List.filter_append_perm _ d.entries).map Prod.fst).nodup_iff.mpr d.nodup⟩

/-- The same is read. -/
theorem get_moveToEnd (d : Dict κ ν) (k x : κ) : (d.moveToEnd k).get x = d.get x := by
  refine Option.ext fun v => ?_
  rw [← mem_entries_iff, ← mem_entries_iff]
  exact (List.filter_append_perm _ d.entries).mem_iff

theorem length_moveToEnd (d : Dict κ ν) (k : κ) :
    (d.moveToEnd k).entries.length = d.entries.length :=
  (List.filter_append_perm _ d.entries).length_eq

theorem length_erase_le (d : Dict κ ν) (k : κ) : (d.erase k).entries.length ≤ d.entries.length :=
  List.length_filter_le _ _

theorem length_set_le (d : Dict κ ν) (k : κ) (v : ν) :
    (d.set k v).entries.length ≤ d.entries.length + 1 := by
  have hentries : ∀ l : List (κ × ν), (setEntries k v l).length ≤ l.length + 1 := by
    intro l
    induction l with
    | nil => exact Nat.le_refl _
    | cons e l ih =>
      obtain ⟨k', v'⟩ := e
      rw [setEntries]
      split_ifs
      · simp
      · simpa using ih
  exact hentries d.entries

end Dict
