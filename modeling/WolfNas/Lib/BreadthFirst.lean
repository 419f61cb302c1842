import Mathlib.Data.Finset.Lattice.Lemmas
import Mathlib.Data.Finset.Dedup

/-!
# Breadth-first search with a depth and a cutoff

A search takes nodes from a queue.  A node that is taken first is handled, and what it names joins
the queue one step deeper, down to a depth.  Before each node the search may stop.

## Main definitions

* `BreadthFirst.WithinHops` — one node leads to another in some steps.
* `BreadthFirst.fresh`, `BreadthFirst.visits` — the new nodes of a list, and the nodes down to a
  depth, level by level.
* `BreadthFirst.readUntil` — the nodes that are handled before the search is full.
* `BreadthFirst.search` — the loop over the queue.

## Main results

* `BreadthFirst.search_ends` — on every graph the search ends, with the nodes handled in the order
  of the levels.
-/

namespace BreadthFirst

variable {α σ τ : Type} [DecidableEq α]

/-! ## Levels -/

section Levels

variable (next : α → List α)

/-- At most `n` steps lead from the first node to the second. -/
def WithinHops : ℕ → α → α → Prop
  | 0, a, b => a = b
  | n + 1, a, b => a = b ∨ ∃ c ∈ next a, WithinHops n c b

instance instDecidableWithinHops : ∀ n a b, Decidable (WithinHops next n a b)
  | 0, a, b => inferInstanceAs (Decidable (a = b))
  | n + 1, a, b =>
    haveI := fun c => instDecidableWithinHops n c b
    inferInstanceAs (Decidable (a = b ∨ ∃ c ∈ next a, WithinHops next n c b))

/-- The nodes of a list that were not seen, each once. -/
def fresh : Finset α → List α → List α
  | _, [] => []
  | seen, a :: l => if a ∈ seen then fresh seen l else a :: fresh (insert a seen) l

/-- A level and the next ones, down to a depth. -/
def visits : ℕ → Finset α → List α → List α
  | 0, _, level => level
  | n + 1, seen, level => level ++
    visits n (seen ∪ level.toFinset) (fresh (seen ∪ level.toFinset) (level.flatMap next))

variable {next}

omit [DecidableEq α] in
theorem withinHops_self (n : ℕ) (a : α) : WithinHops next n a a := by
  cases n with
  | zero => rfl
  | succ n => exact .inl rfl

omit [DecidableEq α] in
theorem WithinHops.step {n : ℕ} {a b c : α} (h : WithinHops next n a b) (hc : c ∈ next b) :
    WithinHops next (n + 1) a c := by
  induction n generalizing a with
  | zero =>
    cases h
    exact .inr ⟨c, hc, rfl⟩
  | succ n ih =>
    rcases h with rfl | ⟨x, hx, hxb⟩
    · exact .inr ⟨c, hc, withinHops_self _ c⟩
    · exact .inr ⟨x, hx, ih hxb⟩

/-- Nodes that were seen may be left out. -/
theorem fresh_filter {seen : Finset α} {p : α → Bool} {l : List α}
    (h : ∀ a, p a = false → a ∈ seen) : fresh seen (l.filter p) = fresh seen l := by
  induction l generalizing seen with
  | nil => rfl
  | cons a l ih =>
    cases hp : p a with
    | false => rw [List.filter_cons_of_neg (by simp [hp]), ih h, fresh, if_pos (h a hp)]
    | true =>
      rw [List.filter_cons_of_pos hp, fresh, fresh, ih h,
        ih fun b hb => Finset.mem_insert_of_mem (h b hb)]

end Levels

/-! ## The cutoff -/

section Cutoff

/-- The nodes of a list that are handled before it is full. -/
def readUntil (full : σ → Bool) (handle : σ → α → σ) : σ → List α → List α
  | _, [] => []
  | s, a :: l => if full s then [] else a :: readUntil full handle (handle s a) l

/-- What has become of the state when the list is read, or it is full. -/
def outcome (full : σ → Bool) (handle : σ → α → σ) (s : σ) (l : List α) : σ :=
  (readUntil full handle s l).foldl handle s

variable {full : σ → Bool} {handle : σ → α → σ}

omit [DecidableEq α] in
theorem outcome_of_full {s : σ} (h : full s = true) (l : List α) :
    outcome full handle s l = s := by
  cases l with
  | nil => rfl
  | cons a l => rw [outcome, readUntil, if_pos h, List.foldl_nil]

omit [DecidableEq α] in
theorem outcome_cons {s : σ} (h : ¬full s = true) (a : α) (l : List α) :
    outcome full handle s (a :: l) = outcome full handle (handle s a) l := by
  rw [outcome, readUntil, if_neg h, List.foldl_cons, outcome]

omit [DecidableEq α] in
/-- A view of the state that says when it is full reads the same nodes. -/
theorem readUntil_of_view (view : σ → τ) {full' : τ → Bool} {handle' : τ → α → τ}
    (hfull : ∀ s, full s = full' (view s))
    (hhandle : ∀ s a, view (handle s a) = handle' (view s) a)
    (s : σ) (l : List α) : readUntil full handle s l = readUntil full' handle' (view s) l := by
  induction l generalizing s with
  | nil => rfl
  | cons a l ih => rw [readUntil, readUntil, hfull, ih, hhandle]

end Cutoff

/-! ## The loop -/

section Loop

variable (next : α → List α) (depth : ℕ) (full : σ → Bool) (handle : σ → α → σ)

/-- What a node of depth `k` names and was not seen, one step deeper. -/
def deeper (seen : Finset α) (a : α) (k : ℕ) : List (α × ℕ) :=
  ((next a).filter (· ∉ seen)).map (·, k + 1)

/-- The loop over the queue; none where the fuel runs out. -/
def search : ℕ → List (α × ℕ) → Finset α → σ → Option σ
  | 0, _, _, _ => none
  | _ + 1, [], _, s => some s
  | n + 1, (a, k) :: queue, seen, s =>
    if full s then some s
    else if a ∈ seen ∨ depth < k then search n queue seen s
    else
      search n (queue ++ if k + 1 ≤ depth then deeper next (insert a seen) a k else [])
        (insert a seen) (handle s a)

/-- With enough fuel the loop ends in this state. -/
def Ends (queue : List (α × ℕ)) (seen : Finset α) (s r : σ) : Prop :=
  ∃ n, search next depth full handle n queue seen s = some r

variable {next depth full handle} {queue : List (α × ℕ)} {seen : Finset α} {s r : σ} {a : α}
  {k n m : ℕ}

/-- More fuel changes nothing. -/
theorem search_mono (h : search next depth full handle n queue seen s = some r) (hnm : n ≤ m) :
    search next depth full handle m queue seen s = some r := by
  induction n generalizing m queue seen s with
  | zero => cases h
  | succ n ih =>
    cases m with
    | zero => exact absurd hnm (Nat.not_succ_le_zero n)
    | succ m =>
      have hle : n ≤ m := Nat.le_of_succ_le_succ hnm
      match queue with
      | [] => exact h
      | (a, k) :: queue =>
        rw [search] at h ⊢
        split_ifs at h ⊢ <;> first | exact h | exact ih h hle

theorem ends_of_full (h : full s = true) : Ends next depth full handle queue seen s s := by
  cases queue with
  | nil => exact ⟨1, rfl⟩
  | cons p queue => exact ⟨1, by rw [search, if_pos h]⟩

theorem ends_skip (hfull : ¬full s = true) (hskip : a ∈ seen)
    (h : Ends next depth full handle queue seen s r) :
    Ends next depth full handle ((a, k) :: queue) seen s r := by
  obtain ⟨n, hn⟩ := h
  exact ⟨n + 1, by rw [search, if_neg hfull, if_pos (.inl hskip), hn]⟩

/-- A node above the last level is taken. -/
theorem ends_take (hfull : ¬full s = true) (hnew : a ∉ seen) (hk : k + 1 ≤ depth)
    (h : Ends next depth full handle (queue ++ deeper next (insert a seen) a k) (insert a seen)
      (handle s a) r) :
    Ends next depth full handle ((a, k) :: queue) seen s r := by
  obtain ⟨n, hn⟩ := h
  refine ⟨n + 1, ?_⟩
  rw [search, if_neg hfull, if_neg (not_or.mpr ⟨hnew, by omega⟩), if_pos hk, hn]

/-- A node of the last level is taken. -/
theorem ends_take_last (hfull : ¬full s = true) (hnew : a ∉ seen)
    (h : Ends next depth full handle queue (insert a seen) (handle s a) r) :
    Ends next depth full handle ((a, depth) :: queue) seen s r := by
  obtain ⟨n, hn⟩ := h
  refine ⟨n + 1, ?_⟩
  rw [search, if_neg hfull, if_neg (not_or.mpr ⟨hnew, by omega⟩), if_neg (by omega),
    List.append_nil, hn]

/-- The last level. -/
theorem ends_last_level (l : List α) (seen : Finset α) (s : σ) :
    Ends next depth full handle (l.map (·, depth)) seen s
      (outcome full handle s (fresh seen l)) := by
  induction l generalizing seen s with
  | nil => exact ⟨1, rfl⟩
  | cons a l ih =>
    by_cases hfull : full s = true
    · rw [outcome_of_full hfull]
      exact ends_of_full hfull
    by_cases hseen : a ∈ seen
    · rw [fresh, if_pos hseen]
      exact ends_skip hfull hseen (ih seen s)
    · rw [fresh, if_neg hseen, outcome_cons hfull]
      exact ends_take_last hfull hseen (ih _ _)

/-- A level above the last, where `found` is what it has named so far. -/
theorem ends_level {j : ℕ} (hk : k + 1 ≤ depth)
    (hnext : ∀ l seen s, Ends next depth full handle (l.map (·, k + 1)) seen s
      (outcome full handle s (visits next j seen (fresh seen l))))
    (l found : List α) (seen : Finset α) (s : σ) :
    Ends next depth full handle (l.map (·, k) ++ found.map (·, k + 1)) seen s
      (outcome full handle s (fresh seen l ++ visits next j (seen ∪ (fresh seen l).toFinset)
        (fresh (seen ∪ (fresh seen l).toFinset) (found ++ (fresh seen l).flatMap next)))) := by
  induction l generalizing found seen s with
  | nil => simpa [fresh] using hnext found seen s
  | cons a l ih =>
    by_cases hfull : full s = true
    · rw [outcome_of_full hfull]
      exact ends_of_full hfull
    by_cases hseen : a ∈ seen
    · rw [fresh, if_pos hseen]
      exact ends_skip hfull hseen (ih found seen s)
    · have hih := ih (found ++ (next a).filter (· ∉ insert a seen)) (insert a seen) (handle s a)
      have hset : seen ∪ (a :: fresh (insert a seen) l).toFinset =
          insert a seen ∪ (fresh (insert a seen) l).toFinset := by
        rw [List.toFinset_cons, Finset.union_insert, Finset.insert_union]
      -- what the node names and was seen is not fresh at the end of the level either
      have hfresh : fresh (insert a seen ∪ (fresh (insert a seen) l).toFinset)
          (found ++ (next a).filter (· ∉ insert a seen) ++
            (fresh (insert a seen) l).flatMap next) =
          fresh (insert a seen ∪ (fresh (insert a seen) l).toFinset)
            (found ++ (a :: fresh (insert a seen) l).flatMap next) := by
        have hp : ∀ b, decide (b ∉ insert a seen) = false →
            b ∈ insert a seen ∪ (fresh (insert a seen) l).toFinset := fun b hb =>
          Finset.mem_union_left _ (not_not.mp (of_decide_eq_false hb))
        rw [← fresh_filter hp, ← fresh_filter (l := found ++ _) hp]
        simp only [List.filter_append, List.filter_filter, Bool.and_self, List.flatMap_cons,
          List.append_assoc]
      rw [fresh, if_neg hseen, List.cons_append, outcome_cons hfull, hset, ← hfresh]
      apply ends_take hfull hseen hk
      rw [List.map_append, ← List.append_assoc] at hih
      exact hih

/-- The levels from one on. -/
theorem ends_levels {j : ℕ} (hk : k + j = depth) (l : List α) (seen : Finset α) (s : σ) :
    Ends next depth full handle (l.map (·, k)) seen s
      (outcome full handle s (visits next j seen (fresh seen l))) := by
  induction j generalizing k l seen s with
  | zero =>
    obtain rfl : k = depth := hk
    exact ends_last_level l seen s
  | succ j ih =>
    have hnext : k + 1 + j = depth := by omega
    simpa [visits] using ends_level (by omega) (fun l seen s => ih hnext l seen s) l [] seen s

/-- On every graph the search ends, with the nodes handled in the order of the levels. -/
theorem search_ends (a : α) (s : σ) : Ends next depth full handle [(a, 0)] ∅ s
    (outcome full handle s (visits next depth ∅ [a])) :=
  ends_levels (Nat.zero_add depth) [a] ∅ s

theorem Ends.unique {r' : σ} (h : Ends next depth full handle queue seen s r)
    (h' : search next depth full handle n queue seen s = some r') : r' = r := by
  obtain ⟨m, hm⟩ := h
  have h₁ := search_mono h' (Nat.le_max_left n m)
  rw [search_mono hm (Nat.le_max_right n m)] at h₁
  exact (Option.some.inj h₁).symm

end Loop

end BreadthFirst
