import Mathlib.Data.List.Basic

/-!
# Writes to a store

A store keeps a value under every key, and a write changes the value under one of them.  An upsert
looks for a record: the first one that the search finds is written over, and where there is none, a
new record is put at the end.

## Main definitions

* `Keyed.apply` — one write.
* `Upsert.upsert` — writing over the first record that is found.

## Main results

* `Keyed.foldl_apply` — a run of writes, at one key.
* `Keyed.frame` — a key that no write names keeps its value.
* `Keyed.read_foldl` — where each write either sets what is read of a value or keeps it, the last
  one that sets it decides.
* `Keyed.getLast?_filterMap_flatMap` — the last of what a run of runs sets.
* `Upsert.upsert_eq_iff` — when two upserts of a marked record leave the same table.
-/

namespace Keyed

variable {κ α ω : Type} [DecidableEq κ] (key : ω → κ) (act : ω → α → α)

/-- A write changes the value under its key. -/
def apply (st : κ → α) (w : ω) : κ → α := fun k => if key w = k then act w (st k) else st k

/-- A run of writes, at one key: the writes that name it, in turn. -/
theorem foldl_apply (ws : List ω) (st : κ → α) (k : κ) :
    ws.foldl (apply key act) st k =
      (ws.filter fun w => key w = k).foldl (fun x w => act w x) (st k) := by
  induction ws generalizing st with
  | nil => rfl
  | cons w ws ih =>
    rw [List.foldl_cons, ih]
    by_cases hkey : key w = k
    · simp [apply, hkey]
    · simp [apply, hkey]

/-- A key that no write names keeps its value. -/
theorem frame {ws : List ω} {k : κ} (h : ∀ w ∈ ws, key w ≠ k) (st : κ → α) :
    ws.foldl (apply key act) st k = st k := by
  have hnone : (ws.filter fun w => key w = k) = [] := by
    refine List.filter_eq_nil_iff.mpr ?_
    intro w hw
    simpa using h w hw
  rw [foldl_apply, hnone, List.foldl_nil]

omit [DecidableEq κ]

/-- What is read of a value after a run of writes is what the last one sets that sets any. -/
theorem read_foldl {β γ : Type} (act : ω → α → α) (read : α → β) (sets : ω → Option γ)
    (value : γ → β) (h : ∀ w x, read (act w x) = ((sets w).map value).getD (read x))
    (ws : List ω) (x : α) :
    read (ws.foldl (fun x w => act w x) x) =
      ((ws.filterMap sets).getLast?.map value).getD (read x) := by
  induction ws generalizing x with
  | nil => rfl
  | cons w ws ih =>
    rw [List.foldl_cons, ih, h]
    cases hw : sets w with
    | none => simp [hw]
    | some b =>
      rw [List.filterMap_cons_some hw]
      cases hlast : (ws.filterMap sets).getLast? with
      | none => simp [List.getLast?_eq_none_iff.mp hlast]
      | some b' => simp [List.getLast?_cons, hlast]

/-- The last of what a run of runs sets is set by the last run that sets any, and is the last that
it sets. -/
theorem getLast?_filterMap_flatMap {β γ : Type} (f : γ → List ω) (sets : ω → Option β)
    (l : List γ) :
    ((l.flatMap f).filterMap sets).getLast? =
      (l.filterMap fun a => ((f a).filterMap sets).getLast?).getLast? := by
  induction l with
  | nil => rfl
  | cons a l ih =>
    rw [List.flatMap_cons, List.filterMap_append, List.getLast?_append, ih]
    cases ha : ((f a).filterMap sets).getLast? with
    | none =>
      rw [List.filterMap_cons_none (f := fun a => ((f a).filterMap sets).getLast?) ha,
        Option.or_none]
    | some b =>
      rw [List.filterMap_cons_some (f := fun a => ((f a).filterMap sets).getLast?) ha,
        List.getLast?_cons]
      cases (l.filterMap fun a => ((f a).filterMap sets).getLast?).getLast? <;> simp

end Keyed

/-! ## Writing over the first record that is found -/

namespace Upsert

variable {α : Type} {found found' : α → Bool} {write write' : Option α → α} {rows : List α}

/-- The first record that is found is written over; a new one is put at the end. -/
def upsert (found : α → Bool) (write : Option α → α) (rows : List α) : List α :=
  match rows.findIdx? found with
  | some i => rows.modify i fun r => write (some r)
  | none => rows ++ [write none]

theorem upsert_of_found {i : ℕ} (h : rows.findIdx? found = some i) :
    upsert found write rows = rows.modify i fun r => write (some r) := by
  simp [upsert, h]

theorem upsert_of_none (h : rows.findIdx? found = none) :
    upsert found write rows = rows ++ [write none] := by
  simp [upsert, h]

theorem find?_of_none (h : rows.findIdx? found = none) : rows.find? found = none := by
  simp [List.find?_eq_bind_findIdx?_getElem?, h]

/-- The record that is written over. -/
theorem find?_of_found {i : ℕ} (h : rows.findIdx? found = some i) :
    ∃ r ∈ rows, rows.find? found = some r ∧ rows[i]? = some r := by
  obtain ⟨hi, _⟩ := List.findIdx?_eq_some_iff_getElem.mp h
  refine ⟨rows[i], List.getElem_mem hi, ?_, List.getElem?_eq_getElem hi⟩
  simp [List.find?_eq_bind_findIdx?_getElem?, h, hi]

theorem length_upsert_of_found {i : ℕ} (h : rows.findIdx? found = some i) :
    (upsert found write rows).length = rows.length := by
  simp [upsert_of_found h]

theorem length_upsert_of_none (h : rows.findIdx? found = none) :
    (upsert found write rows).length = rows.length + 1 := by
  simp [upsert_of_none h]

variable {marked : α → Prop} (hfresh : ∀ r ∈ rows, ¬marked r)
include hfresh

/-- Two writes of a marked record into a table that has none leave the same table only where
they write at one place. -/
theorem place_eq_of_upsert_eq (hwrite' : ∀ r, marked (write' r))
    (h : upsert found write rows = upsert found' write' rows) {i j : ℕ}
    (hi : rows.findIdx? found = some i) (hj : rows.findIdx? found' = some j) : i = j := by
  by_contra hne
  obtain ⟨r, hmem, _, hr⟩ := find?_of_found hj
  rw [upsert_of_found hi, upsert_of_found hj] at h
  have hat := congrArg (fun l : List α => l[j]?) h
  simp only [List.getElem?_modify_ne _ _ hne, List.getElem?_modify_eq, hr, Option.map_eq_map,
    Option.map_some, Option.some.injEq] at hat
  exact hfresh r hmem (hat ▸ hwrite' _)

/-- Two upserts of a marked record into a table that has none leave the same table where they
find the same record and write the same one. -/
theorem upsert_eq_iff (hwrite' : ∀ r, marked (write' r)) :
    upsert found write rows = upsert found' write' rows ↔
      rows.findIdx? found = rows.findIdx? found' ∧
        write (rows.find? found) = write' (rows.find? found) := by
  constructor
  · intro h
    have hlen := congrArg List.length h
    cases hi : rows.findIdx? found with
    | none =>
      cases hj : rows.findIdx? found' with
      | none =>
        rw [upsert_of_none hi, upsert_of_none hj] at h
        exact ⟨rfl, by simpa [find?_of_none hi] using h⟩
      | some j =>
        rw [length_upsert_of_none hi, length_upsert_of_found hj] at hlen
        omega
    | some i =>
      cases hj : rows.findIdx? found' with
      | none =>
        rw [length_upsert_of_found hi, length_upsert_of_none hj] at hlen
        omega
      | some j =>
        obtain rfl := place_eq_of_upsert_eq hfresh hwrite' h hi hj
        obtain ⟨r, _, hfind, hr⟩ := find?_of_found hi
        rw [upsert_of_found hi, upsert_of_found hj] at h
        have hat := congrArg (fun l : List α => l[i]?) h
        simp only [List.getElem?_modify_eq, hr, Option.map_eq_map, Option.map_some,
          Option.some.injEq] at hat
        exact ⟨rfl, by rw [hfind, hat]⟩
  · intro ⟨hplace, hwritten⟩
    cases hi : rows.findIdx? found with
    | none =>
      rw [upsert_of_none hi, upsert_of_none (hplace ▸ hi)]
      simpa [find?_of_none hi] using hwritten
    | some i =>
      obtain ⟨r, _, hfind, hr⟩ := find?_of_found hi
      rw [upsert_of_found hi, upsert_of_found (hplace ▸ hi)]
      refine List.ext_getElem? ?_
      intro j
      by_cases hij : i = j
      · subst hij
        simpa [hfind, hr] using hwritten
      · simp only [List.getElem?_modify_ne _ _ hij]

end Upsert
