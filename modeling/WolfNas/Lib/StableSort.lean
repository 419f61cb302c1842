import Mathlib.Data.List.Sort

/-!
# Insertion sort keeps the order of equals

To sort and then pick some elements is to pick them and then sort.

## Main results

* `StableSort.filter_insertionSort` — picking after and before sorting.
* `StableSort.pairwise_insertionSort_stable` — equal elements keep their order.
* `StableSort.pairwise_iff_of_strict` — a property of the ordered pairs of a list.
* `StableSort.eq_of_filter_eq` — a list in the order of a rank is known by what has each rank.
-/

namespace StableSort

variable {α : Type} (r : α → α → Prop) [DecidableRel r]

/-- An element that is not picked does not matter. -/
theorem filter_orderedInsert_neg {p : α → Bool} {a : α} (ha : p a = false) (l : List α) :
    (l.orderedInsert r a).filter p = l.filter p := by
  induction l with
  | nil => simp [ha]
  | cons b l ih =>
    simp only [List.orderedInsert]
    split_ifs
    · simp [ha]
    · simp only [List.filter_cons, ih]

/-- An element that is picked goes where it would go among those picked. -/
theorem filter_orderedInsert_pos [IsTrans α r] {p : α → Bool} {a : α} (ha : p a = true) {l : List α}
    (hl : l.Pairwise r) :
    (l.orderedInsert r a).filter p = (l.filter p).orderedInsert r a := by
  induction l with
  | nil => simp [ha]
  | cons b l ih =>
    obtain ⟨hb, hl⟩ := List.pairwise_cons.mp hl
    simp only [List.orderedInsert]
    split_ifs with hab
    · -- what is picked of the rest comes after `b`, so `a` stays in front
      have hfront : ∀ c ∈ (b :: l).filter p, r a c := by
        intro c hc
        rcases List.mem_cons.mp (List.mem_filter.mp hc).1 with rfl | hc
        · exact hab
        · exact IsTrans.trans _ _ _ hab (hb c hc)
      rw [List.filter_cons_of_pos ha]
      cases hrest : (b :: l).filter p with
      | nil => rfl
      | cons c rest =>
        rw [hrest] at hfront
        rw [List.orderedInsert, if_pos (hfront c List.mem_cons_self)]
    · cases hpb : p b with
      | true => simp [hpb, hab, ih hl]
      | false => simp [hpb, ih hl]

/-- What is inserted stands in front of its equals. -/
theorem pairwise_orderedInsert [IsTrans α r] [Std.Total r] {p : α → α → Prop} {a : α} {l : List α}
    (hl : l.Pairwise fun b c => r b c ∧ (r c b → p b c)) (ha : ∀ b ∈ l, p a b) :
    (l.orderedInsert r a).Pairwise fun b c => r b c ∧ (r c b → p b c) := by
  induction l with
  | nil => simp
  | cons b l ih =>
    rw [List.pairwise_cons] at hl
    rw [List.orderedInsert]
    split_ifs with hab
    · refine List.pairwise_cons.mpr ⟨?_, List.pairwise_cons.mpr hl⟩
      intro c hc
      refine ⟨?_, fun _ => ha c hc⟩
      rcases List.mem_cons.mp hc with rfl | hc
      · exact hab
      · exact IsTrans.trans _ _ _ hab (hl.1 c hc).1
    · refine List.pairwise_cons.mpr ⟨?_, ih hl.2 fun c hc => ha c (List.mem_cons_of_mem b hc)⟩
      intro c hc
      rcases (List.mem_orderedInsert r).mp hc with rfl | hc
      · exact ⟨(Std.Total.total b _).resolve_right hab, fun h => absurd h hab⟩
      · exact hl.1 c hc

/-- **Equal elements keep their order.** -/
theorem pairwise_insertionSort_stable [IsTrans α r] [Std.Total r] {p : α → α → Prop} {l : List α}
    (hl : l.Pairwise p) :
    (l.insertionSort r).Pairwise fun a b => r a b ∧ (r b a → p a b) := by
  induction l with
  | nil => simp
  | cons a l ih =>
    rw [List.pairwise_cons] at hl
    refine pairwise_orderedInsert r (ih hl.2) ?_
    intro b hb
    exact hl.1 b ((List.mem_insertionSort r).mp hb)

/-- A list in a strict order has a property of its ordered pairs exactly where all ordered pairs of
its elements do. -/
theorem pairwise_iff_of_strict {q p : α → α → Prop} {l : List α} (hq : ∀ a b, q a b → ¬q b a)
    (hl : l.Pairwise q) : l.Pairwise p ↔ ∀ a ∈ l, ∀ b ∈ l, q a b → p a b := by
  induction l with
  | nil => simp
  | cons x l ih =>
    rw [List.pairwise_cons] at hl
    rw [List.pairwise_cons, ih hl.2]
    constructor
    · rintro ⟨hx, hrest⟩ a ha b hb hab
      rcases List.mem_cons.mp ha with rfl | ha'
      · rcases List.mem_cons.mp hb with rfl | hb'
        · exact absurd hab (hq _ _ hab)
        · exact hx b hb'
      · rcases List.mem_cons.mp hb with rfl | hb'
        · exact absurd (hl.1 a ha') (hq _ _ hab)
        · exact hrest a ha' b hb' hab
    · intro h
      refine ⟨fun b hb => h x (by simp) b (List.mem_cons_of_mem x hb) (hl.1 b hb), ?_⟩
      intro a ha b hb hab
      exact h a (List.mem_cons_of_mem x ha) b (List.mem_cons_of_mem x hb) hab

/-- **To pick after sorting is to sort what is picked.** -/
theorem filter_insertionSort [IsTrans α r] [Std.Total r] (p : α → Bool) (l : List α) :
    (l.insertionSort r).filter p = (l.filter p).insertionSort r := by
  induction l with
  | nil => rfl
  | cons a l ih =>
    rw [List.insertionSort_cons]
    cases ha : p a with
    | true =>
      rw [filter_orderedInsert_pos r ha (List.pairwise_insertionSort r l), ih,
        List.filter_cons_of_pos ha, List.insertionSort_cons]
    | false =>
      rw [filter_orderedInsert_neg r ha, ih, List.filter_cons_of_neg (by simp [ha])]

/-- What has each rank is in both lists or in neither. -/
theorem mem_iff_of_filter_eq {rank : α → ℕ} {l l' : List α}
    (h : ∀ k, (l.filter fun a => rank a = k) = l'.filter fun a => rank a = k) (a : α) :
    a ∈ l ↔ a ∈ l' := by
  have hrank :
      (a ∈ l.filter fun b => rank b = rank a) ↔ a ∈ l'.filter fun b => rank b = rank a := by
    rw [h]
  simpa using hrank

/-- A list in the order of a rank is known by what has each rank, in turn. -/
theorem eq_of_filter_eq {rank : α → ℕ} {l l' : List α} (hl : l.Pairwise fun a b => rank a ≤ rank b)
    (hl' : l'.Pairwise fun a b => rank a ≤ rank b)
    (h : ∀ k, (l.filter fun a => rank a = k) = l'.filter fun a => rank a = k) : l = l' := by
  have hmem := mem_iff_of_filter_eq h
  induction l generalizing l' with
  | nil =>
    cases l' with
    | nil => rfl
    | cons b l' => exact absurd ((hmem b).mpr List.mem_cons_self) List.not_mem_nil
  | cons a l ih =>
    cases l' with
    | nil => exact absurd ((hmem a).mp List.mem_cons_self) List.not_mem_nil
    | cons b l' =>
      have hal := List.pairwise_cons.mp hl
      have hbl := List.pairwise_cons.mp hl'
      have hab : rank a ≤ rank b := by
        rcases List.mem_cons.mp ((hmem b).mpr List.mem_cons_self) with rfl | hb
        · exact le_refl _
        · exact hal.1 b hb
      have hba : rank b ≤ rank a := by
        rcases List.mem_cons.mp ((hmem a).mp List.mem_cons_self) with rfl | ha
        · exact le_refl _
        · exact hbl.1 a ha
      have hrank : rank b = rank a := le_antisymm hba hab
      have hfirst := h (rank a)
      rw [List.filter_cons_of_pos (by simp), List.filter_cons_of_pos (by simp [hrank])] at hfirst
      obtain rfl : a = b := (List.cons.inj hfirst).1
      have hrest : ∀ k, (l.filter fun a => rank a = k) = l'.filter fun a => rank a = k := by
        intro k
        have hk := h k
        by_cases hak : rank a = k
        · rw [List.filter_cons_of_pos (by simp [hak]),
            List.filter_cons_of_pos (by simp [hak])] at hk
          exact (List.cons.inj hk).2
        · rw [List.filter_cons_of_neg (by simp [hak]),
            List.filter_cons_of_neg (by simp [hak])] at hk
          exact hk
      congr 1
      exact ih hal.2 hbl.2 hrest (mem_iff_of_filter_eq hrest)

end StableSort
