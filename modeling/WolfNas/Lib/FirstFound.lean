import Mathlib.Data.List.Infix
import Mathlib.Data.List.TakeWhile

/-!
# Up to the first

To go through a list up to the first element that is wanted, and to try its members one after the
other up to the first that succeeds.  Something else can cut the tries off.

## Main definitions

* `List.before` — the elements before one.
* `Tries.UpToFirst` — the tries are of the candidates in their order, up to the first success.

## Main results

* `List.mem_before_of_find?` — what is found stands before every other wanted element.
* `List.find?_eq_some_iff_before` — what is found is wanted, and nothing before it is.
* `List.find?_forall_iff` — when what is found has a property.
* `List.exists_first_split` — the first place that is wanted, where this depends on what comes
  before.
* `Tries.UpToFirst.later` — no candidate is tried after a success, or after the cut.
* `Tries.UpToFirst.next` — without a success the next candidate is tried.
* `Tries.UpToFirst.success_le_one`, `Tries.UpToFirst.all_tried` — one success at most, and none
  only where all candidates were tried.
-/

namespace List

variable {α : Type} [DecidableEq α] {p : α → Bool} {l : List α} {a b : α}

/-- The elements before the first `a`. -/
def before (l : List α) (a : α) : List α := l.takeWhile (· ≠ a)

theorem before_cons_self (a : α) (l : List α) : (a :: l).before a = [] := by
  simp [before]

theorem before_cons_of_ne {c : α} (h : c ≠ a) (l : List α) :
    (c :: l).before a = c :: l.before a := by
  simp [before, h]

/-- What is found stands before every other wanted element. -/
theorem mem_before_of_find? (hfind : l.find? p = some a) (hb : p b = true) (hne : b ≠ a) :
    a ∈ l.before b := by
  induction l with
  | nil => simp at hfind
  | cons c l ih =>
    by_cases hc : p c = true
    · -- `c` is what is found
      rw [find?_cons_of_pos hc] at hfind
      obtain rfl : c = a := Option.some.inj hfind
      rw [before_cons_of_ne hne.symm]
      exact mem_cons_self
    · have hcb : c ≠ b := by
        rintro rfl
        exact hc hb
      rw [find?_cons_of_neg hc] at hfind
      rw [before_cons_of_ne hcb]
      exact mem_cons_of_mem c (ih hfind)

/-- Nothing before what is found is wanted. -/
theorem not_of_mem_before_find? (hfind : l.find? p = some a) (hb : b ∈ l.before a) :
    ¬p b = true := by
  induction l with
  | nil => simp at hfind
  | cons c l ih =>
    by_cases hc : p c = true
    · rw [find?_cons_of_pos hc] at hfind
      obtain rfl : c = a := Option.some.inj hfind
      rw [before_cons_self] at hb
      exact absurd hb not_mem_nil
    · rw [find?_cons_of_neg hc] at hfind
      by_cases hca : c = a
      · subst hca
        rw [before_cons_self] at hb
        exact absurd hb not_mem_nil
      · rw [before_cons_of_ne hca] at hb
        rcases mem_cons.mp hb with rfl | hb
        · exact hc
        · exact ih hfind hb

/-- What is found is wanted, and nothing before it is. -/
theorem find?_eq_some_iff_before :
    l.find? p = some a ↔ a ∈ l ∧ p a = true ∧ ∀ b ∈ l.before a, ¬p b = true := by
  constructor
  · intro h
    exact ⟨mem_of_find?_eq_some h, find?_some h, fun b hb => not_of_mem_before_find? h hb⟩
  · rintro ⟨ha, hpa, hbefore⟩
    have hsome : (l.find? p).isSome := find?_isSome.mpr ⟨a, ha, hpa⟩
    obtain ⟨b, hb⟩ := Option.isSome_iff_exists.mp hsome
    by_cases hab : a = b
    · rw [hab]
      exact hb
    · exact absurd (find?_some hb) (hbefore b (mem_before_of_find? hb hpa hab))

/-- What is found has a property, exactly if every wanted element without it comes after a wanted
element that has it. -/
theorem find?_forall_iff {q : α → Prop} :
    (∀ a, l.find? p = some a → q a) ↔
      ∀ a ∈ l, p a = true → ¬q a → ∃ b ∈ l.before a, p b = true ∧ q b := by
  constructor
  · intro h a ha hpa hqa
    have hsome : (l.find? p).isSome := find?_isSome.mpr ⟨a, ha, hpa⟩
    obtain ⟨b, hb⟩ := Option.isSome_iff_exists.mp hsome
    have hqb : q b := h b hb
    have hne : a ≠ b := by
      rintro rfl
      exact hqa hqb
    exact ⟨b, mem_before_of_find? hb hpa hne, find?_some hb, hqb⟩
  · intro h a hfind
    by_contra hqa
    obtain ⟨b, hb, hpb, _⟩ := h a (mem_of_find?_eq_some hfind) (find?_some hfind) hqa
    exact not_of_mem_before_find? hfind hb hpb

/-- Of the places that are wanted there is a first one. -/
theorem exists_first_split {α : Type} {P : List α → α → Prop} {xs : List α}
    (h : ∃ l a r, xs = l ++ a :: r ∧ P l a) :
    ∃ l a r, xs = l ++ a :: r ∧ P l a ∧ ∀ l' b r', l = l' ++ b :: r' → ¬P l' b := by
  induction xs generalizing P with
  | nil =>
    obtain ⟨l, a, r, hxs, _⟩ := h
    simp at hxs
  | cons x xs ih =>
    by_cases hx : P [] x
    · refine ⟨[], x, xs, rfl, hx, ?_⟩
      intro l' b r' hl
      simp at hl
    · obtain ⟨l, a, r, hxs, ha⟩ := h
      cases l with
      | nil =>
        obtain ⟨rfl, rfl⟩ := List.cons.inj hxs
        exact absurd ha hx
      | cons y l =>
        obtain ⟨rfl, htail⟩ := List.cons.inj hxs
        obtain ⟨l, a, r, rfl, ha, hfirst⟩ :=
          ih (P := fun l a => P (x :: l) a) ⟨l, a, r, htail, ha⟩
        refine ⟨x :: l, a, r, rfl, ha, ?_⟩
        intro l' b r' hl
        cases l' with
        | nil =>
          obtain ⟨rfl, _⟩ := List.cons.inj hl
          exact hx
        | cons z l' =>
          obtain ⟨rfl, htail⟩ := List.cons.inj hl
          exact hfirst l' b r' htail

end List

/-! ## Tries -/

namespace Tries

variable {α τ : Type} {candidate : τ → α} {ok : τ → Prop} {candidates rest : List α}
  {tries : List τ} {t : τ} {cut cut' : Prop}

/-- The tries are of the candidates in their order, up to the first that succeeds. -/
structure UpToFirst (candidate : τ → α) (ok : τ → Prop) (candidates : List α) (tries : List τ)
    (cut : Prop) : Prop where
  inOrder : tries.map candidate <+: candidates
  failed : ∀ t ∈ tries.dropLast, ¬ok t
  stopped : cut ∨ tries.map candidate = candidates ∨ ∃ t ∈ tries.getLast?, ok t

namespace UpToFirst

theorem nil : UpToFirst candidate ok [] [] cut where
  inOrder := List.prefix_refl _
  failed := by simp
  stopped := .inr (.inl rfl)

theorem cutOff (h : UpToFirst candidate ok candidates tries cut) (hcut : cut → cut') :
    UpToFirst candidate ok candidates tries cut' :=
  { h with stopped := h.stopped.imp_left hcut }

/-- A success is the last try. -/
theorem last_of_ok (h : UpToFirst candidate ok candidates tries cut) (ht : t ∈ tries) (hok : ok t) :
    t ∈ tries.getLast? := by
  have hne : tries ≠ [] := List.ne_nil_of_mem ht
  rw [← List.dropLast_append_getLast hne] at ht ⊢
  rcases List.mem_append.mp ht with ht | ht
  · exact absurd hok (h.failed t ht)
  · rw [List.mem_singleton] at ht
    simp [ht]

/-- No candidate is tried after a success, or after the cut. -/
theorem later (h : UpToFirst candidate ok candidates tries cut) (hend : cut ∨ ∃ t ∈ tries, ok t) :
    UpToFirst candidate ok (candidates ++ rest) tries cut where
  inOrder := h.inOrder.trans (List.prefix_append _ _)
  failed := h.failed
  stopped := by
    rcases hend with hcut | ⟨t, ht, hok⟩
    · exact .inl hcut
    · exact .inr (.inr ⟨t, h.last_of_ok ht hok, hok⟩)

/-- Without a success all candidates were tried. -/
theorem all_tried (h : UpToFirst candidate ok candidates tries cut) (hcut : ¬cut)
    (hnone : ∀ t ∈ tries, ¬ok t) : tries.map candidate = candidates := by
  rcases h.stopped with h | h | ⟨t, ht, hok⟩
  · exact absurd h hcut
  · exact h
  · exact absurd hok (hnone t (List.mem_of_mem_getLast? ht))

/-- Without a success the next candidate is tried. -/
theorem next (h : UpToFirst candidate ok candidates tries cut) (hcut : ¬cut)
    (hnone : ∀ t ∈ tries, ¬ok t) :
    UpToFirst candidate ok (candidates ++ [candidate t]) (tries ++ [t]) cut where
  inOrder := by simp [h.all_tried hcut hnone]
  failed := by simpa using hnone
  stopped := .inr (.inl (by simp [h.all_tried hcut hnone]))

/-- At most one try succeeds. -/
theorem success_le_one [DecidablePred ok] (h : UpToFirst candidate ok candidates tries cut) :
    (tries.filter ok).length ≤ 1 := by
  by_cases hne : tries = []
  · simp [hne]
  · have hnone : tries.dropLast.filter ok = [] := by
      rw [List.filter_eq_nil_iff]
      intro t ht
      simpa using h.failed t ht
    rw [← List.dropLast_append_getLast hne, List.filter_append, hnone, List.nil_append]
    exact List.length_filter_le _ _

end UpToFirst

end Tries
