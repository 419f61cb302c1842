import Mathlib.Data.List.Nodup

/-!
# At most so many of each key

A list is walked from the front, and an element stays as long as not too many of its key have
stayed before.  Whether it stays can be told from the given list.

## Main definitions

* `before` — the elements in front of the first occurrence of one.
* `capBy` — at most `limit k` elements of each key `k`; an element without a key stays.

## Main results

* `mem_capBy` — an element stays exactly where fewer of its key stand in front of it.
* `mem_before_or` — of two elements, one stands in front of the other.
* `before_filter` — what stands in front of an element, in what is picked from the list.
* `filter_mem_of_sublist` — what is left of a list without duplicates.
* `capBy_sublist`, `countP_capBy` — what stays, and how many of each key.
-/

variable {α κ : Type} [DecidableEq α] [DecidableEq κ]

/-- The elements in front of the first `x`. -/
def before (l : List α) (x : α) : List α := l.takeWhile (· ≠ x)

@[simp] theorem before_cons_self (x : α) (l : List α) : before (x :: l) x = [] := by
  simp [before]

theorem before_cons_of_ne {x y : α} (h : y ≠ x) (l : List α) :
    before (y :: l) x = y :: before l x := by
  simp [before, h]

/-- Of two elements of a list, one stands in front of the other. -/
theorem mem_before_or {l : List α} {x y : α} (hx : x ∈ l) (hy : y ∈ l) (h : x ≠ y) :
    x ∈ before l y ∨ y ∈ before l x := by
  induction l with
  | nil => simp at hx
  | cons z l ih =>
    by_cases hzx : z = x
    · subst hzx
      left
      rw [before_cons_of_ne h]
      exact List.mem_cons_self
    by_cases hzy : z = y
    · subst hzy
      right
      rw [before_cons_of_ne (Ne.symm h)]
      exact List.mem_cons_self
    rw [before_cons_of_ne hzy, before_cons_of_ne hzx]
    have hx : x ∈ l := by simpa [Ne.symm hzx] using hx
    have hy : y ∈ l := by simpa [Ne.symm hzy] using hy
    rcases ih hx hy with h | h
    · exact .inl (List.mem_cons_of_mem z h)
    · exact .inr (List.mem_cons_of_mem z h)

/-- What stands in front of an element that is picked, in what is picked. -/
theorem before_filter {p : α → Bool} {x : α} (hx : p x = true) (l : List α) :
    before (l.filter p) x = (before l x).filter p := by
  induction l with
  | nil => rfl
  | cons y l ih =>
    by_cases hyx : y = x
    · subst hyx
      rw [List.filter_cons_of_pos hx, before_cons_self, before_cons_self, List.filter_nil]
    · rw [before_cons_of_ne hyx]
      cases hy : p y with
      | true =>
        rw [List.filter_cons_of_pos hy, before_cons_of_ne hyx, ih, List.filter_cons_of_pos hy]
      | false => simp only [List.filter_cons, hy, Bool.false_eq_true, if_false, ih]

/-- Without duplicates, what is left of a list is what is picked from it. -/
theorem filter_mem_of_sublist {l l' : List α} (h : l'.Sublist l) (hl : l.Nodup) :
    l.filter (· ∈ l') = l' := by
  induction h with
  | slnil => rfl
  | cons a h ih =>
    rw [List.nodup_cons] at hl
    have ha : a ∉ _ := fun h' => hl.1 (h.subset h')
    rw [List.filter_cons_of_neg (by simpa using ha), ih hl.2]
  | cons_cons a h ih =>
    rw [List.nodup_cons] at hl
    rw [List.filter_cons_of_pos (by simp)]
    congr 1
    conv_rhs => rw [← ih hl.2]
    refine List.filter_congr fun x hx => ?_
    have hne : x ≠ a := by
      rintro rfl
      exact hl.1 hx
    simp [hne]

/-- At most `limit k` elements of a key `k` stay; `counted` are the keys of those that did. -/
def capBy (key : α → Option κ) (limit : κ → ℕ) : List κ → List α → List α
  | _, [] => []
  | counted, x :: l => match key x with
    | none => x :: capBy key limit counted l
    | some k =>
      if limit k ≤ counted.countP (· = k) then capBy key limit counted l
      else x :: capBy key limit (k :: counted) l

variable {key : α → Option κ} {limit : κ → ℕ} {counted : List κ} {l : List α} {x : α}

/-- An element stays exactly where fewer of its key than the limit were counted or stand in
front of it. -/
theorem mem_capBy_counted : x ∈ capBy key limit counted l ↔
    x ∈ l ∧ ∀ k, key x = some k →
      counted.countP (· = k) + (before l x).countP (key · = some k) < limit k := by
  induction l generalizing counted with
  | nil => simp [capBy]
  | cons y l ih =>
    by_cases hyx : y = x
    · subst hyx
      cases hkey : key y with
      | none => simp [capBy, hkey]
      | some k =>
        by_cases hlimit : limit k ≤ counted.countP (· = k)
        · have hover :
              ¬counted.countP (· = k) + (before l y).countP (key · = some k) < limit k := by omega
          simp only [capBy, hkey, if_pos hlimit, ih, before_cons_self]
          simp [hover, hlimit]
        · simp only [capBy, hkey, if_neg hlimit, before_cons_self]
          simpa using hlimit
    · rw [before_cons_of_ne hyx]
      cases hkey : key y with
      | none => simp [capBy, hkey, ih, Ne.symm hyx]
      | some k' =>
        have hcons : ∀ k, (y :: before l x).countP (key · = some k) =
            (before l x).countP (key · = some k) + if k' = k then 1 else 0 := by
          intro k
          simp [List.countP_cons, hkey]
        by_cases hlimit : limit k' ≤ counted.countP (· = k')
        · simp only [capBy, hkey, if_pos hlimit, ih, hcons, List.mem_cons, Ne.symm hyx, false_or]
          -- The limit of `k'` is reached, so one more of it changes nothing.
          refine and_congr_right fun _ => forall₂_congr fun k _ => ?_
          by_cases hk : k' = k
          · subst hk
            simp only [if_pos]
            omega
          · simp [hk]
        · simp only [capBy, hkey, if_neg hlimit, ih, hcons, List.mem_cons, Ne.symm hyx, false_or,
            List.countP_cons, decide_eq_true_eq]
          refine and_congr_right fun _ => forall₂_congr fun k _ => ?_
          omega

/-- An element stays exactly where fewer of its key than the limit stand in front of it. -/
theorem mem_capBy : x ∈ capBy key limit [] l ↔
    x ∈ l ∧ ∀ k, key x = some k → (before l x).countP (key · = some k) < limit k := by
  simp [mem_capBy_counted]

omit [DecidableEq α] in
theorem capBy_sublist : (capBy key limit counted l).Sublist l := by
  induction l generalizing counted with
  | nil => exact .slnil
  | cons y l ih =>
    rw [capBy]
    split
    · exact ih.cons_cons y
    · split_ifs
      · exact ih.cons y
      · exact ih.cons_cons y

omit [DecidableEq α] in
/-- How many of a key stay. -/
theorem countP_capBy (k : κ) : (capBy key limit counted l).countP (key · = some k) =
    min (limit k - counted.countP (· = k)) (l.countP (key · = some k)) := by
  induction l generalizing counted with
  | nil => simp [capBy]
  | cons y l ih =>
    rw [capBy, List.countP_cons]
    cases hkey : key y with
    | none => simp [ih, hkey]
    | some k' =>
      simp only
      by_cases hlimit : limit k' ≤ counted.countP (· = k')
      · rw [if_pos hlimit, ih]
        by_cases hk : k' = k
        · subst hk
          simp only [decide_true, if_true]
          omega
        · simp [hk]
      · rw [if_neg hlimit, List.countP_cons, ih, hkey, List.countP_cons]
        by_cases hk : k' = k
        · subst hk
          simp only [decide_true, if_true]
          omega
        · simp [hk]
