import Mathlib.Algebra.Order.Field.Rat
import Mathlib.Data.List.TakeWhile
import Mathlib.Tactic.Linarith

/-!
# Events in a sliding window

The times of some events, and how many of them lie in a window of some length.  Who looks back
from the last event needs to look at no other window.

## Main definitions

* `Window.countIn` — how many times lie between two.
* `Window.AtMost` — no window of the length has more than so many.
* `Window.Remembers` — a list has forgotten only times from before the window.

## Main results

* `Window.atMost_snoc` — one more event, later than the others.
* `Window.Remembers.length_dropWhile` — who forgets what is too old counts the window.
-/

namespace Window

/-- How many times lie between `a` and `b`. -/
def countIn (a b : ℚ) (times : List ℚ) : ℕ := times.countP fun t => a ≤ t ∧ t ≤ b

/-- Every window of the length has at most `n` of the times. -/
def AtMost (n : ℕ) (length : ℚ) (times : List ℚ) : Prop := ∀ a, countIn a (a + length) times ≤ n

variable {n : ℕ} {length a b t : ℚ} {times kept : List ℚ}

@[simp] theorem countIn_nil : countIn a b [] = 0 := rfl

theorem countIn_append (times' : List ℚ) :
    countIn a b (times ++ times') = countIn a b times + countIn a b times' :=
  List.countP_append ..

theorem countIn_singleton : countIn a b [t] = if a ≤ t ∧ t ≤ b then 1 else 0 := by
  simp [countIn, List.countP_singleton]

/-- All the times are in the window. -/
theorem countIn_replicate {k : ℕ} (h : a ≤ t ∧ t ≤ b) : countIn a b (List.replicate k t) = k := by
  rw [countIn, List.countP_replicate, if_pos (by simpa using h)]

/-- A window that is empty. -/
theorem countIn_eq_zero_of_lt (h : b < a) : countIn a b times = 0 := by
  rw [countIn, List.countP_eq_zero]
  intro t _
  rw [decide_eq_true_eq]
  intro ht
  linarith [ht.1, ht.2]

/-- A window in a longer one. -/
theorem countIn_le_of_le {a' b' : ℚ} (h : ∀ t ∈ times, a ≤ t → t ≤ b → a' ≤ t ∧ t ≤ b') :
    countIn a b times ≤ countIn a' b' times := by
  refine List.countP_mono_left ?_
  intro t ht hin
  rw [decide_eq_true_eq] at hin ⊢
  exact h t ht hin.1 hin.2

theorem atMost_of_neg (h : length < 0) : AtMost n length times := by
  intro a
  rw [countIn_eq_zero_of_lt (by linarith)]
  exact Nat.zero_le n

/-- **One more event** that is no earlier than the others: the window that ends with it. -/
theorem atMost_snoc (hlast : ∀ t' ∈ times, t' ≤ t) :
    AtMost n length (times ++ [t]) ↔
      AtMost n length times ∧ countIn (t - length) t (times ++ [t]) ≤ n := by
  have hsub : t - length + length = t := sub_add_cancel t length
  constructor
  · intro h
    refine ⟨fun a => ?_, ?_⟩
    · have hall := h a
      rw [countIn_append] at hall
      omega
    · have hwindow := h (t - length)
      rwa [hsub] at hwindow
  · rintro ⟨hbefore, hwindow⟩ a
    by_cases hin : a ≤ t ∧ t ≤ a + length
    · refine le_trans (countIn_le_of_le ?_) hwindow
      intro t' ht' ha _
      refine ⟨by linarith [hin.2], ?_⟩
      rcases List.mem_append.mp ht' with ht' | ht'
      · exact hlast t' ht'
      · rw [List.mem_singleton.mp ht']
    · rw [countIn_append, countIn_singleton, if_neg hin]
      exact hbefore a

/-- What was forgotten of the times is from before `since`. -/
def Remembers (since : ℚ) (times kept : List ℚ) : Prop :=
  ∃ forgotten, times = forgotten ++ kept ∧ ∀ t ∈ forgotten, t < since

variable {since since' now : ℚ}

/-- Nothing is forgotten by forgetting nothing. -/
theorem Remembers.refl : Remembers since times times := ⟨[], rfl, by simp⟩

theorem Remembers.mono (h : Remembers since times kept) (hle : since ≤ since') :
    Remembers since' times kept := by
  obtain ⟨forgotten, heq, hold⟩ := h
  exact ⟨forgotten, heq, fun t ht => (hold t ht).trans_le hle⟩

theorem Remembers.snoc (h : Remembers since times kept) (new : List ℚ) :
    Remembers since (times ++ new) (kept ++ new) := by
  obtain ⟨forgotten, rfl, hold⟩ := h
  exact ⟨forgotten, List.append_assoc .., hold⟩

/-- What is too old is forgotten from the head. -/
theorem Remembers.dropWhile (h : Remembers since times kept) (hle : since ≤ since') :
    Remembers since' times (kept.dropWhile fun t => t < since') := by
  obtain ⟨forgotten, rfl, hold⟩ := h
  refine ⟨forgotten ++ kept.takeWhile fun t => t < since', ?_, ?_⟩
  · rw [List.append_assoc, List.takeWhile_append_dropWhile]
  · intro t ht
    rcases List.mem_append.mp ht with ht | ht
    · exact (hold t ht).trans_le hle
    · have hold' := List.mem_takeWhile_imp (p := fun t => decide (t < since')) ht
      exact of_decide_eq_true hold'

/-- What is left at the head of a list in order is not too old, and neither is what follows. -/
theorem le_of_mem_dropWhile (hsorted : kept.Pairwise (· ≤ ·)) :
    ∀ t ∈ kept.dropWhile fun t => t < since, since ≤ t := by
  induction kept with
  | nil => simp
  | cons a kept ih =>
    rw [List.pairwise_cons] at hsorted
    by_cases ha : a < since
    · rw [List.dropWhile_cons_of_pos (by simpa using ha)]
      exact ih hsorted.2
    · rw [List.dropWhile_cons_of_neg (by simpa using ha)]
      intro t ht
      rcases List.mem_cons.mp ht with rfl | ht
      · exact not_lt.mp ha
      · exact (not_lt.mp ha).trans (hsorted.1 t ht)

/-- **What is left** is as long as the window has times. -/
theorem Remembers.length_dropWhile (h : Remembers since times kept) (hle : since ≤ since')
    (hsorted : times.Pairwise (· ≤ ·)) (hnow : ∀ t ∈ times, t ≤ now) :
    (kept.dropWhile fun t => t < since').length = countIn since' now times := by
  have hkept : kept.Pairwise (· ≤ ·) := by
    obtain ⟨forgotten, rfl, -⟩ := h
    exact (List.pairwise_append.mp hsorted).2.1
  have hleft := @le_of_mem_dropWhile kept since' hkept
  obtain ⟨forgotten, rfl, hold⟩ := h.dropWhile hle
  have hnone : countIn since' now forgotten = 0 := by
    rw [countIn, List.countP_eq_zero]
    intro t ht hin
    exact absurd (hold t ht) (not_lt.mpr (of_decide_eq_true hin).1)
  have hall : countIn since' now (kept.dropWhile fun t => t < since') =
      (kept.dropWhile fun t => t < since').length := by
    rw [countIn, List.countP_eq_length]
    intro t ht
    exact decide_eq_true ⟨hleft t ht, hnow t (List.mem_append_right _ ht)⟩
  rw [countIn_append, hnone, hall, Nat.zero_add]

end Window
