import Mathlib.Data.List.Nodup

/-!
# Tables with a primary key, and keys that are owned

A table is a list of rows in which every key stands once.  Rows may also hand out keys to owners,
slot by slot, and are apart where a key never has two owners in one slot.  This is the general form
of "two distinct works of one catalogue never share a key".

## Main definitions

* `Table key` — the rows, with the primary key as a field.
* `Table.update`, `Table.drop` — changing and removing the row of a key.
* `Ownership.Apart` — no key has two owners in one slot.
* `Ownership.Free` — a key has no other owner in a slot.

## Main results

* `List.find?_key_eq_some` — what is found for a key.
* `Ownership.apart_concat` — a row whose key is free keeps the rows apart.
* `Ownership.free_of_fresh` — an unused key is free.
-/

/-- Where no key stands twice, the row found for a key is the one that has it. -/
theorem List.find?_key_eq_some {ρ κ : Type} [DecidableEq κ] {key : ρ → κ} {l : List ρ} {r : ρ}
    {k : κ} (hnodup : (l.map key).Nodup) :
    (l.find? fun x => key x = k) = some r ↔ r ∈ l ∧ key r = k := by
  constructor
  · intro h
    exact ⟨List.mem_of_find?_eq_some h, by simpa using List.find?_some h⟩
  · rintro ⟨hr, rfl⟩
    cases hfind : l.find? fun x => key x = key r with
    | none => exact absurd (List.find?_eq_none.mp hfind r hr) (by simp)
    | some r' =>
      have hkey : key r' = key r := by simpa using List.find?_some hfind
      rw [List.inj_on_of_nodup_map hnodup (List.mem_of_find?_eq_some hfind) hr hkey]

/-- A table whose rows are told apart by `key`. -/
structure Table {ρ : Type} (key : ρ → ℕ) where
  rows : List ρ
  nodup : (rows.map key).Nodup

namespace Table

variable {ρ : Type} {key : ρ → ℕ} (t : Table key)

/-- A row of the table. -/
instance : Membership ρ (Table key) := ⟨fun t r => r ∈ t.rows⟩

/-- The change `f` on the row of a key. -/
def update (k : ℕ) (f : ρ → ρ) (hf : ∀ r, key (f r) = key r) : Table key where
  rows := t.rows.map fun r => if key r = k then f r else r
  nodup := by
    have hkey : (key ∘ fun r => if key r = k then f r else r) = key := by
      funext r
      by_cases h : key r = k <;> simp [h, hf]
    rw [List.map_map, hkey]
    exact t.nodup

/-- The table without the row of a key. -/
def drop (k : ℕ) : Table key where
  rows := t.rows.filter fun r => key r ≠ k
  nodup := t.nodup.sublist ((List.filter_sublist).map key)

variable {t}

theorem mem_update {k : ℕ} {f : ρ → ρ} {hf : ∀ r, key (f r) = key r} {r : ρ} :
    r ∈ t.update k f hf ↔ ∃ r₀ ∈ t, (if key r₀ = k then f r₀ else r₀) = r :=
  List.mem_map

theorem mem_drop {k : ℕ} {r : ρ} : r ∈ t.drop k ↔ r ∈ t ∧ key r ≠ k := by
  change r ∈ t.rows.filter _ ↔ r ∈ t.rows ∧ _
  simp

/-- The key tells the rows apart. -/
theorem eq_of_key {r r' : ρ} (hr : r ∈ t) (hr' : r' ∈ t) (h : key r = key r') : r = r' :=
  List.inj_on_of_nodup_map t.nodup hr hr' h

end Table

namespace Ownership

variable {ρ ω σ κ : Type} (owner : ρ → ω) (slot : ρ → σ) (key : ρ → κ)

/-- No key has two owners in one slot. -/
def Apart (rows : List ρ) : Prop :=
  ∀ r ∈ rows, ∀ r' ∈ rows, slot r = slot r' → key r = key r' → owner r = owner r'

/-- In the slot `s`, the key `k` has no owner but `o`. -/
def Free (rows : List ρ) (o : ω) (s : σ) (k : κ) : Prop :=
  ∀ r ∈ rows, slot r = s → key r = k → owner r = o

instance [DecidableEq ω] [DecidableEq σ] [DecidableEq κ] (rows : List ρ) (o : ω) (s : σ) (k : κ) :
    Decidable (Free owner slot key rows o s k) :=
  inferInstanceAs (Decidable (∀ r ∈ rows, slot r = s → key r = k → owner r = o))

theorem apart_nil : Apart owner slot key [] := by simp [Apart]

/-- A key that no row holds is free. -/
theorem free_of_fresh {rows : List ρ} {o : ω} {s : σ} {k : κ} (h : ∀ r ∈ rows, key r ≠ k) :
    Free owner slot key rows o s k := fun r hr _ hk => absurd hk (h r hr)

/-- A new row whose key is free in its slot keeps the rows apart. -/
theorem apart_concat {rows : List ρ} {r : ρ} (h : Apart owner slot key rows)
    (hr : Free owner slot key rows (owner r) (slot r) (key r)) :
    Apart owner slot key (rows ++ [r]) := by
  intro a ha b hb hs hk
  rcases List.mem_append.mp ha with ha' | ha' <;> rcases List.mem_append.mp hb with hb' | hb'
  · exact h a ha' b hb' hs hk
  · rw [List.mem_singleton.mp hb'] at hs hk ⊢
    exact hr a ha' hs hk
  · rw [List.mem_singleton.mp ha'] at hs hk ⊢
    exact (hr b hb' hs.symm hk.symm).symm
  · rw [List.mem_singleton.mp ha', List.mem_singleton.mp hb']

end Ownership
