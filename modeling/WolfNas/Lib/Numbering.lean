import Mathlib.Algebra.BigOperators.Group.List.Basic
import Mathlib.Algebra.Order.BigOperators.Group.List
import Mathlib.Data.Prod.Lex
import Mathlib.Order.Hom.Set
import Mathlib.Order.Interval.Set.Defs
import Mathlib.Algebra.Ring.Nat
import Mathlib.Order.ConditionallyCompleteLattice.Basic
import Mathlib.Order.Nat
import Mathlib.Data.Int.ConditionallyCompleteOrder

/-!
# Numbers that run through sections

A list of sections with their lengths.  The places of the sections are numbered one after another,
and a number is located as a section and a place within it.

## Main definitions

* `Numbering.locate` — the place of a number.
* `Numbering.total` — how many places there are.
* `Numbering.IsPlace` — a place of a section.

## Main results

* `Numbering.locate_eq_none_iff` — the numbers that have no place.
* `Numbering.locate_append` — the number of a place.
* `Numbering.locate_lt` — in strictly ordered sections, the places have the order of the numbers.
* `Numbering.exists_orderIso_iff` — in ordered sections, locating is an order isomorphism exactly
  where they are distinct.
-/

namespace Numbering

variable {κ : Type}

/-- The place of a number, where `before` numbers are gone. -/
def locate : List (κ × ℤ) → ℤ → ℤ → Option (κ × ℤ)
  | [], _, _ => none
  | e :: l, before, n =>
    if before + 1 ≤ n ∧ n ≤ before + e.2 then some (e.1, n - (before + 1) + 1)
    else locate l (before + e.2) n

/-- How many places there are. -/
def total (l : List (κ × ℤ)) : ℤ := (l.map Prod.snd).sum

/-- A place of a section. -/
def IsPlace (l : List (κ × ℤ)) (p : κ × ℤ) : Prop := ∃ c, (p.1, c) ∈ l ∧ 1 ≤ p.2 ∧ p.2 ≤ c

/-- Every section has a place. -/
def Positive (l : List (κ × ℤ)) : Prop := ∀ e ∈ l, 0 < e.2

variable {l l₁ l₂ : List (κ × ℤ)} {e : κ × ℤ} {before n n' : ℤ} {p p' : κ × ℤ}

@[simp] theorem total_nil : total ([] : List (κ × ℤ)) = 0 := rfl

@[simp] theorem total_cons : total (e :: l) = e.2 + total l := by simp [total]

@[simp] theorem total_append : total (l₁ ++ l₂) = total l₁ + total l₂ := by simp [total]

theorem positive_cons : Positive (e :: l) ↔ 0 < e.2 ∧ Positive l := List.forall_mem_cons

theorem Positive.total_nonneg (h : Positive l) : 0 ≤ total l := by
  induction l with
  | nil => exact le_refl _
  | cons e l ih =>
    obtain ⟨he, hl⟩ := positive_cons.mp h
    have := ih hl
    rw [total_cons]
    omega

/-- Exactly the numbers outside of the total have no place. -/
theorem locate_eq_none_iff (h : Positive l) :
    locate l before n = none ↔ ¬(before < n ∧ n ≤ before + total l) := by
  induction l generalizing before with
  | nil => simp only [locate, total_nil, true_iff]; omega
  | cons e l ih =>
    obtain ⟨he, hl⟩ := positive_cons.mp h
    have hnonneg := hl.total_nonneg
    rw [locate, total_cons]
    split_ifs with hhead
    · simp only [false_iff, not_not]
      omega
    · rw [ih hl]
      omega

/-- What is located is a place. -/
theorem isPlace_of_locate (h : locate l before n = some p) : IsPlace l p := by
  induction l generalizing before with
  | nil => cases h
  | cons e l ih =>
    rw [locate] at h
    split_ifs at h with hhead
    · cases h
      refine ⟨e.2, List.mem_cons_self, ?_, ?_⟩
      · change 1 ≤ n - (before + 1) + 1
        omega
      · change n - (before + 1) + 1 ≤ e.2
        omega
    · obtain ⟨c, hmem, hp⟩ := ih h
      exact ⟨c, List.mem_cons_of_mem e hmem, hp⟩

/-- The number of a place, after the sections in front of it. -/
theorem locate_append {k : κ} {c i : ℤ} (h : Positive l₁) (hi : 1 ≤ i) (hc : i ≤ c) :
    locate (l₁ ++ (k, c) :: l₂) before (before + total l₁ + i) = some (k, i) := by
  induction l₁ generalizing before with
  | nil =>
    have hhead : before + 1 ≤ before + 0 + i ∧ before + 0 + i ≤ before + c := by omega
    rw [List.nil_append, total_nil, locate, if_pos hhead]
    congr 2
    omega
  | cons e l₁ ih =>
    obtain ⟨he, hl⟩ := positive_cons.mp h
    have hnonneg := hl.total_nonneg
    have hskip : ¬(before + 1 ≤ before + total (e :: l₁) + i ∧
        before + total (e :: l₁) + i ≤ before + e.2) := by
      rw [total_cons]
      omega
    rw [List.cons_append, locate, if_neg hskip, total_cons, ← add_assoc]
    exact ih hl

/-- Every place has a number. -/
theorem exists_locate (h : Positive l) (hp : IsPlace l p) :
    ∃ n, 1 ≤ n ∧ n ≤ total l ∧ locate l 0 n = some p := by
  obtain ⟨c, hmem, hlow, hhigh⟩ := hp
  obtain ⟨l₁, l₂, rfl⟩ := List.append_of_mem hmem
  have hfront : Positive l₁ := fun e he => h e (List.mem_append_left _ he)
  have hback : Positive l₂ := fun e he =>
    h e (List.mem_append_right _ (List.mem_cons_of_mem _ he))
  have hnonneg := hfront.total_nonneg
  have hnonneg' := hback.total_nonneg
  refine ⟨0 + total l₁ + p.2, ?_, ?_, locate_append hfront hlow hhigh⟩
  · omega
  · rw [total_append, total_cons]
    change 0 + total l₁ + p.2 ≤ total l₁ + (c + total l₂)
    omega

/-- What is located comes after what is gone. -/
theorem before_lt_of_locate (h : Positive l) (hn : locate l before n = some p) : before < n := by
  by_contra hle
  have hnone : locate l before n = none :=
    (locate_eq_none_iff h).mpr fun hrange => hle hrange.1
  rw [hnone] at hn
  cases hn

/-- The number of the first place of a section. -/
theorem locate_getElem (h : Positive l) {i : ℕ} (hi : i < l.length) :
    locate l 0 (total (l.take i) + 1) = some (l[i].1, 1) := by
  have hsplit : l = l.take i ++ (l[i].1, l[i].2) :: l.drop (i + 1) := by
    rw [Prod.mk.eta, List.getElem_cons_drop, List.take_append_drop]
  have hfront : Positive (l.take i) := fun e he => h e (List.mem_of_mem_take he)
  have hplace : (1 : ℤ) ≤ l[i].2 := h _ (List.getElem_mem hi)
  have hlocate := @locate_append κ (l.take i) (l.drop (i + 1)) 0 l[i].1 l[i].2 1 hfront
    (le_refl 1) hplace
  rw [← hsplit, zero_add] at hlocate
  exact hlocate

theorem total_take_lt (h : Positive l) {i j : ℕ} (hij : i < j) (hj : j ≤ l.length) :
    total (l.take i) < total (l.take j) := by
  induction l generalizing i j with
  | nil =>
    rw [List.length_nil] at hj
    omega
  | cons e l ih =>
    obtain ⟨he, hl⟩ := positive_cons.mp h
    cases j with
    | zero => omega
    | succ j =>
      have hfront : Positive (l.take j) := fun e he => hl e (List.mem_of_mem_take he)
      have hnonneg := hfront.total_nonneg
      cases i with
      | zero =>
        rw [List.take_zero, List.take_succ_cons, total_nil, total_cons]
        omega
      | succ i =>
        rw [List.length_cons] at hj
        rw [List.take_succ_cons, List.take_succ_cons, total_cons, total_cons]
        have := ih hl (i := i) (j := j) (by omega) (by omega)
        omega

variable [LinearOrder κ]

/-- In strictly ordered sections, the places have the order of the numbers. -/
theorem locate_lt (h : Positive l) (hl : (l.map Prod.fst).Pairwise (· < ·))
    (hn : locate l before n = some p) (hn' : locate l before n' = some p') (hlt : n < n') :
    toLex p < toLex p' := by
  induction l generalizing before with
  | nil => cases hn
  | cons e l ih =>
    obtain ⟨he, hpos⟩ := positive_cons.mp h
    obtain ⟨hfirst, hrest⟩ := List.pairwise_cons.mp hl
    rw [locate] at hn hn'
    split_ifs at hn with hhead
    · split_ifs at hn' with hhead'
      · cases hn
        cases hn'
        exact Prod.Lex.toLex_lt_toLex.mpr (.inr ⟨rfl, by dsimp only; omega⟩)
      · -- the second number is in a later section
        cases hn
        obtain ⟨c, hmem, -⟩ := isPlace_of_locate hn'
        have hkey : p'.1 ∈ l.map Prod.fst := List.mem_map.mpr ⟨_, hmem, rfl⟩
        exact Prod.Lex.toLex_lt_toLex.mpr (.inl (hfirst _ hkey))
    · have hafter := before_lt_of_locate hpos hn
      split_ifs at hn' with hhead'
      · omega
      · exact ih hpos hrest hn hn'

/-- **In ordered sections, locating is an order isomorphism onto the places exactly where the
sections are distinct.** -/
theorem exists_orderIso_iff (h : Positive l) (hl : (l.map Prod.fst).Pairwise (· ≤ ·)) :
    (∃ iso : Set.Icc 1 (total l) ≃o {p : κ ×ₗ ℤ // IsPlace l (ofLex p)},
      ∀ n, locate l 0 n.1 = some (ofLex (iso n).1)) ↔ (l.map Prod.fst).Nodup := by
  constructor
  · rintro ⟨iso, hiso⟩
    rw [List.nodup_iff_pairwise_ne, List.pairwise_map, List.pairwise_iff_getElem]
    intro i j hi hj hij heq
    have hfront := total_take_lt h hij hj.le
    have hlast : total (l.take j) < total (l.take (j + 1)) :=
      total_take_lt h (Nat.lt_succ_self j) hj
    have hall : total (l.take (j + 1)) ≤ total l := by
      rw [← List.take_append_drop (j + 1) l, total_append, List.take_append_drop]
      have hback : Positive (l.drop (j + 1)) := fun e he => h e (List.mem_of_mem_drop he)
      have := hback.total_nonneg
      omega
    have hnonneg : 0 ≤ total (l.take i) :=
      Positive.total_nonneg fun e he => h e (List.mem_of_mem_take he)
    -- the first places of both sections are the same
    have hsame := (locate_getElem h hi).trans
      ((congrArg (fun k => some (k, (1 : ℤ))) heq).trans (locate_getElem h hj).symm)
    have hi' : total (l.take i) + 1 ∈ Set.Icc 1 (total l) := ⟨by omega, by omega⟩
    have hj' : total (l.take j) + 1 ∈ Set.Icc 1 (total l) := ⟨by omega, by omega⟩
    rw [hiso ⟨_, hi'⟩, hiso ⟨_, hj'⟩] at hsame
    have hnumbers := congrArg Subtype.val (iso.injective (Subtype.ext (Option.some.inj hsame)))
    simp only at hnumbers
    omega
  · intro hnodup
    have hstrict : (l.map Prod.fst).Pairwise (· < ·) :=
      (hl.and hnodup).imp fun hab => lt_of_le_of_ne hab.1 hab.2
    have hsome : ∀ n : Set.Icc 1 (total l), ∃ p, locate l 0 n.1 = some p := by
      intro n
      refine Option.ne_none_iff_exists'.mp fun hnone => ?_
      refine (locate_eq_none_iff h).mp hnone ⟨?_, ?_⟩
      · have := n.2.1
        omega
      · have := n.2.2
        omega
    choose place hplace using hsome
    have hmono : StrictMono fun n : Set.Icc 1 (total l) =>
        (⟨toLex (place n), isPlace_of_locate (hplace n)⟩ :
          {p : κ ×ₗ ℤ // IsPlace l (ofLex p)}) :=
      fun n n' hlt => locate_lt h hstrict (hplace n) (hplace n') hlt
    refine ⟨hmono.orderIsoOfSurjective _ fun p => ?_, hplace⟩
    obtain ⟨n, hlow, hhigh, hn⟩ := exists_locate h p.2
    refine ⟨⟨n, hlow, hhigh⟩, Subtype.ext ?_⟩
    exact congrArg toLex (Option.some.inj ((hplace _).symm.trans hn))

end Numbering
