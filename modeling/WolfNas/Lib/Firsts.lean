import Mathlib.Data.List.Nodup

/-!
# The first of each key

To go through a list and keep what has a key that was not seen before.

## Main definitions

* `Firsts.firsts` — what is kept.

## Main results

* `Firsts.firsts_append` — the keys of what comes before are seen.
* `Firsts.filter_firsts` — picking by the key, before and after.
* `Firsts.head?_firsts` — the first element is kept.
* `Firsts.firsts_eq_filter` — where the keys that were not seen are distinct.
* `Firsts.firsts_eq_of_perm` — where at most one element is new.
* `Firsts.mem_map_firsts`, `Firsts.nodup_map_firsts` — the keys of what is kept.
-/

namespace Firsts

variable {α κ : Type} [DecidableEq κ] (key : α → κ)

/-- The elements with a key that was not seen, the first of each key. -/
def firsts (seen : List κ) : List α → List α
  | [] => []
  | a :: l => if key a ∈ seen then firsts seen l else a :: firsts (key a :: seen) l

/-- Only what was seen counts, not in which order. -/
theorem firsts_congr {seen seen' : List κ} (h : ∀ k, k ∈ seen ↔ k ∈ seen') (l : List α) :
    firsts key seen l = firsts key seen' l := by
  induction l generalizing seen seen' with
  | nil => rfl
  | cons a l ih =>
    simp only [firsts, h (key a)]
    split_ifs
    · exact ih h
    · congr 1
      refine ih ?_
      intro k
      simp only [List.mem_cons, h k]

/-- The keys of what comes before are seen. -/
theorem firsts_append (seen : List κ) (l l' : List α) :
    firsts key seen (l ++ l') = firsts key seen l ++ firsts key (l.map key ++ seen) l' := by
  induction l generalizing seen with
  | nil => rfl
  | cons a l ih =>
    simp only [List.cons_append, firsts, List.map_cons]
    split_ifs with ha
    · rw [ih]
      congr 1
      refine firsts_congr key ?_ l'
      intro k
      simp only [List.mem_append, List.mem_cons]
      constructor
      · exact .inr
      · rintro (rfl | h)
        · exact .inr ha
        · exact h
    · rw [ih, List.cons_append]
      congr 2
      refine firsts_congr key ?_ l'
      intro k
      simp only [List.mem_append, List.mem_cons]
      exact or_left_comm

/-- A key that nothing has does not matter. -/
theorem firsts_cons_of_forall_ne {k : κ} {seen : List κ} {l : List α} (h : ∀ b ∈ l, key b ≠ k) :
    firsts key (k :: seen) l = firsts key seen l := by
  induction l generalizing seen with
  | nil => rfl
  | cons b l ih =>
    have hb := h b List.mem_cons_self
    have hrest : ∀ c ∈ l, key c ≠ k := fun c hc => h c (List.mem_cons_of_mem b hc)
    simp only [firsts, List.mem_cons, hb, false_or]
    split_ifs
    · exact ih hrest
    · rw [firsts_congr key (fun _ => List.Perm.mem_iff (List.Perm.swap k (key b) seen)) l]
      exact congrArg (b :: ·) (ih hrest)

/-- Picking by the key, before and after. -/
theorem filter_firsts {p : α → Bool} (hp : ∀ a b, key a = key b → p a = p b) (seen : List κ)
    (l : List α) : (firsts key seen l).filter p = firsts key seen (l.filter p) := by
  induction l generalizing seen with
  | nil => rfl
  | cons a l ih =>
    by_cases ha : key a ∈ seen
    · by_cases hpa : p a
      · simp [firsts, ha, hpa, ih]
      · simp [firsts, ha, hpa, ih]
    · by_cases hpa : p a
      · simp [firsts, ha, hpa, ih]
      · -- the key of `a` is seen now, but it is no key of what is picked
        have hne : ∀ b ∈ l.filter p, key b ≠ key a := by
          intro b hb hkey
          rw [hp a b hkey.symm] at hpa
          exact hpa (List.mem_filter.mp hb).2
        simp [firsts, ha, hpa, ih, firsts_cons_of_forall_ne key hne]

/-- The first element is kept. -/
theorem head?_firsts (l : List α) : (firsts key [] l).head? = l.head? := by
  cases l with
  | nil => rfl
  | cons a l => simp [firsts]

/-- What is kept is in the list, in its order. -/
theorem sublist_firsts (seen : List κ) (l : List α) : (firsts key seen l).Sublist l := by
  induction l generalizing seen with
  | nil => exact List.Sublist.refl []
  | cons a l ih =>
    rw [firsts]
    split_ifs
    · exact (ih seen).cons a
    · exact (ih (key a :: seen)).cons_cons a

/-- Where the keys that were not seen are distinct, all that has one of them is kept. -/
theorem firsts_eq_filter {seen : List κ} {l : List α}
    (h : ((l.filter fun a => key a ∉ seen).map key).Nodup) :
    firsts key seen l = l.filter fun a => key a ∉ seen := by
  induction l generalizing seen with
  | nil => rfl
  | cons a l ih =>
    by_cases ha : key a ∈ seen
    · simp only [ha, not_true_eq_false, decide_false, Bool.false_eq_true, not_false_eq_true,
        List.filter_cons_of_neg] at h ⊢
      rw [firsts, if_pos ha]
      exact ih h
    · have hcons : (a :: l).filter (fun a => key a ∉ seen) = a :: l.filter fun a => key a ∉ seen :=
        List.filter_cons_of_pos (by simp [ha])
      rw [hcons, List.map_cons, List.nodup_cons] at h
      rw [hcons, firsts, if_neg ha]
      congr 1
      have hsame : (l.filter fun b => key b ∉ key a :: seen) = l.filter fun b => key b ∉ seen := by
        refine List.filter_congr ?_
        intro b hb
        by_cases hseen : key b ∈ seen
        · simp [hseen]
        · have hne : key b ≠ key a := by
            intro hkey
            refine h.1 (List.mem_map.mpr ⟨b, ?_, hkey⟩)
            exact List.mem_filter.mpr ⟨hb, by simp [hseen]⟩
          simp [hseen, hne]
      rw [ih (by rw [hsame]; exact h.2), hsame]

/-- Where at most one element is new, the order does not matter. -/
theorem firsts_eq_of_perm {seen : List κ} {l l' : List α} (hperm : l'.Perm l)
    (h : (l.filter fun a => key a ∉ seen).length ≤ 1) : firsts key seen l' = firsts key seen l := by
  have hnodup : ∀ m : List α, m.length ≤ 1 → (m.map key).Nodup := by
    intro m hm
    match m, hm with
    | [], _ => exact List.nodup_nil
    | [a], _ => exact List.nodup_singleton (key a)
  have hnew := hperm.filter fun a => decide (key a ∉ seen)
  have hlength : (l'.filter fun a => key a ∉ seen).length ≤ 1 := by rwa [hnew.length_eq]
  rw [firsts_eq_filter key (hnodup _ hlength), firsts_eq_filter key (hnodup _ h)]
  match hl : l.filter fun a => key a ∉ seen, h with
  | [], _ => exact List.perm_nil.mp (hl ▸ hnew)
  | [a], _ => exact List.perm_singleton.mp (hl ▸ hnew)

/-- Every key that was not seen is kept once. -/
theorem mem_map_firsts {k : κ} (seen : List κ) (l : List α) :
    k ∈ (firsts key seen l).map key ↔ k ∈ l.map key ∧ k ∉ seen := by
  induction l generalizing seen with
  | nil => simp [firsts]
  | cons a l ih =>
    simp only [firsts]
    split_ifs with ha
    · rw [ih, List.map_cons, List.mem_cons]
      constructor
      · rintro ⟨hk, hseen⟩
        exact ⟨.inr hk, hseen⟩
      · rintro ⟨rfl | hk, hseen⟩
        · exact absurd ha hseen
        · exact ⟨hk, hseen⟩
    · simp only [List.map_cons, List.mem_cons, ih, not_or]
      by_cases hk : k = key a
      · simp [hk, ha]
      · simp [hk]

/-- No key is kept twice. -/
theorem nodup_map_firsts (seen : List κ) (l : List α) : ((firsts key seen l).map key).Nodup := by
  induction l generalizing seen with
  | nil => simp [firsts]
  | cons a l ih =>
    simp only [firsts]
    split_ifs
    · exact ih seen
    · rw [List.map_cons, List.nodup_cons]
      refine ⟨?_, ih _⟩
      rw [mem_map_firsts]
      intro h
      exact h.2 List.mem_cons_self

end Firsts
