import Mathlib.Data.List.Sort

/-!
# Lines with priorities

Who joins a line stands behind all whose priority is not lower, and in front of the others; the
first ones are served.  The line is in the order of the priorities, and of two with the same
priority the one who joined first stands first.

## Main definitions

* `InLine`, `InLine.Before` — a place in a line, and whose turn comes first.
* `PriorityLine.join`, `PriorityLine.leave`, `PriorityLine.serve` — who joins, leaves, is served.
* `PriorityLine.Effect`, `PriorityLine.apply` — any of these.
* `PriorityLine.Ordered` — everybody stands in turn.

## Main results

* `PriorityLine.ordered_apply` — the line stays in order.
* `PriorityLine.count_apply` — nobody is lost, and nobody is served twice for one place.
* `PriorityLine.filterMap_orderedInsert` — a place among those that count.
-/

variable {P α : Type} [LinearOrder P]

/-- A place in a line: its priority, how many had joined then, and whose it is. -/
structure InLine (P α : Type) where
  priority : P
  turn : ℕ
  item : α
  deriving DecidableEq

/-- The first one has the higher priority, or the same and joined first. -/
def InLine.Before (a b : InLine P α) : Prop :=
  b.priority < a.priority ∨ a.priority = b.priority ∧ a.turn < b.turn

/-- The places of a line, and how many have joined it. -/
structure PriorityLine (P α : Type) where
  places : List (InLine P α) := []
  turns : ℕ := 0

namespace PriorityLine

variable (l : PriorityLine P α)

/-- Somebody joins behind all whose priority is not lower. -/
def join (priority : P) (item : α) : PriorityLine P α where
  places := l.places.orderedInsert (fun a b => b.priority < a.priority)
    ⟨priority, l.turns + 1, item⟩
  turns := l.turns + 1

/-- Somebody leaves. -/
def leave [DecidableEq α] (item : α) : PriorityLine P α :=
  { l with places := l.places.filter fun a => a.item ≠ item }

/-- The first ones are served. -/
def serve (n : ℕ) : List α × PriorityLine P α :=
  ((l.places.take n).map InLine.item, { l with places := l.places.drop n })

/-- What happens to a line. -/
inductive Effect (P α : Type)
  | keep
  | join (priority : P) (item : α)
  | leave (item : α)
  | serve (n : ℕ)

/-- The line afterwards. -/
def apply [DecidableEq α] : Effect P α → PriorityLine P α
  | .keep => l
  | .join priority item => l.join priority item
  | .leave item => l.leave item
  | .serve n => (l.serve n).2

/-- Who joins. -/
def Effect.joined : Effect P α → List α
  | .join _ item => [item]
  | .keep | .leave _ | .serve _ => []

/-- Who is served. -/
def served : Effect P α → List α
  | .serve n => (l.serve n).1
  | .keep | .join _ _ | .leave _ => []

/-- Who leaves without being served. -/
def left [DecidableEq α] : Effect P α → List α
  | .leave item => (l.places.map InLine.item).filter (· = item)
  | .keep | .join _ _ | .serve _ => []

/-- Everybody stands in turn. -/
def Ordered : Prop := l.places.Pairwise InLine.Before ∧ ∀ a ∈ l.places, a.turn ≤ l.turns

variable {l}

theorem ordered_nil : Ordered ({} : PriorityLine P α) := ⟨List.Pairwise.nil, nofun⟩

/-- A line of which some places are left is in order. -/
theorem Ordered.sublist (h : l.Ordered) {places : List (InLine P α)}
    (hsub : places.Sublist l.places) : Ordered { l with places } :=
  ⟨h.1.sublist hsub, fun a ha => h.2 a (hsub.subset ha)⟩

/-- A new place is in turn among those that are. -/
theorem pairwise_orderedInsert {places : List (InLine P α)} {a : InLine P α}
    (h : places.Pairwise InLine.Before) (ha : ∀ b ∈ places, b.turn < a.turn) :
    (places.orderedInsert (fun a b => b.priority < a.priority) a).Pairwise InLine.Before := by
  induction places with
  | nil => exact List.pairwise_singleton _ a
  | cons b places ih =>
    obtain ⟨hb, hplaces⟩ := List.pairwise_cons.mp h
    rw [List.orderedInsert_cons]
    split_ifs with hlow
    · refine List.pairwise_cons.mpr ⟨?_, h⟩
      intro c hc
      rcases List.mem_cons.mp hc with rfl | hc
      · exact .inl hlow
      · rcases hb c hc with hless | ⟨heq, -⟩
        · exact .inl (hless.trans hlow)
        · exact .inl (heq ▸ hlow)
    · refine List.pairwise_cons.mpr ⟨?_, ih hplaces fun c hc => ha c (List.mem_cons_of_mem b hc)⟩
      intro c hc
      rcases (List.mem_orderedInsert _).mp hc with rfl | hc
      · rcases (not_lt.mp hlow).lt_or_eq with hless | heq
        · exact .inl hless
        · exact .inr ⟨heq.symm, ha b List.mem_cons_self⟩
      · exact hb c hc

theorem ordered_join (h : l.Ordered) (priority : P) (item : α) :
    (l.join priority item).Ordered := by
  constructor
  · exact pairwise_orderedInsert h.1 fun b hb => Nat.lt_succ_of_le (h.2 b hb)
  · intro a ha
    rcases (List.mem_orderedInsert _).mp ha with rfl | ha
    · exact le_rfl
    · exact (h.2 a ha).trans (Nat.le_succ _)

/-- **The line stays in order**, whatever happens to it. -/
theorem ordered_apply [DecidableEq α] (h : l.Ordered) (e : Effect P α) : (l.apply e).Ordered := by
  cases e with
  | keep => exact h
  | join priority item => exact ordered_join h priority item
  | leave item => exact h.sublist List.filter_sublist
  | serve n => exact h.sublist (List.drop_sublist n _)

/-! ## Places -/

variable [DecidableEq α]

/-- The places of somebody. -/
def count (l : PriorityLine P α) (item : α) : ℕ := (l.places.map InLine.item).count item

theorem count_join (priority : P) (item a : α) :
    (l.join priority item).count a = l.count a + [item].count a := by
  have hperm := (List.perm_orderedInsert (fun a b : InLine P α => b.priority < a.priority)
    ⟨priority, l.turns + 1, item⟩ l.places).map InLine.item
  rw [count, count, join, hperm.count_eq, List.map_cons, List.count_cons, List.count_singleton]

omit [LinearOrder P] in
theorem count_leave (item a : α) :
    ((l.places.map InLine.item).filter (· = item)).count a + (l.leave item).count a =
      l.count a := by
  have hfilter : (l.leave item).places.map InLine.item =
      (l.places.map InLine.item).filter fun b => b ≠ item := by
    rw [leave, List.filter_map]
    rfl
  rw [count, count, hfilter]
  by_cases h : a = item
  · subst h
    have hleft : ((l.places.map InLine.item).filter fun b => b ≠ a).count a = 0 :=
      List.count_eq_zero.mpr (by simp)
    rw [List.count_filter (by simp), hleft, Nat.add_zero]
  · have hnot : ((l.places.map InLine.item).filter (· = item)).count a = 0 :=
      List.count_eq_zero.mpr (by simp [h])
    rw [hnot, List.count_filter (by simpa using h), Nat.zero_add]

omit [LinearOrder P] in
theorem count_serve (n : ℕ) (a : α) :
    (l.serve n).1.count a + (l.serve n).2.count a = l.count a := by
  rw [count, count, serve, ← List.count_append, ← List.map_append, List.take_append_drop]

/-- **Nobody is lost**: who was in the line or joins it is served, leaves, or is in the line. -/
theorem count_apply (e : Effect P α) (a : α) : l.count a + e.joined.count a =
    (l.served e).count a + (l.left e).count a + (l.apply e).count a := by
  cases e with
  | keep => simp [Effect.joined, served, left, apply]
  | join priority item => simp [Effect.joined, served, left, apply, count_join]
  | leave item => simp [Effect.joined, served, left, apply, count_leave]
  | serve n => simp [Effect.joined, served, left, apply, count_serve]

/-! ## Places that count -/

omit [LinearOrder P] [DecidableEq α] in
/-- Who joins among all, joins among those that count at the place that the order asks for. -/
theorem filterMap_orderedInsert {β : Type} {r : β → β → Prop} {s : α → α → Prop} [DecidableRel r]
    [DecidableRel s] {f : β → Option α} {a : β} {a' : α} {l : List β} (ha : f a = some a')
    (hrel : ∀ b ∈ l, ∀ b', f b = some b' → (r a b ↔ s a' b'))
    (hfirst : l.Pairwise fun b c => r a b → r a c) :
    (l.orderedInsert r a).filterMap f = (l.filterMap f).orderedInsert s a' := by
  induction l with
  | nil => simp [ha]
  | cons b l ih =>
    obtain ⟨hb, hl⟩ := List.pairwise_cons.mp hfirst
    rw [List.orderedInsert_cons]
    split_ifs with hab
    · -- all that count and come later stand behind the new one as well
      have hfront : ∀ c' ∈ (b :: l).filterMap f, s a' c' := by
        intro c' hc'
        obtain ⟨c, hc, hfc⟩ := List.mem_filterMap.mp hc'
        refine (hrel c hc c' hfc).mp ?_
        rcases List.mem_cons.mp hc with rfl | hc
        · exact hab
        · exact hb c hc hab
      rw [List.filterMap_cons_some ha]
      cases hrest : (b :: l).filterMap f with
      | nil => rfl
      | cons c' rest =>
        rw [hrest] at hfront
        rw [List.orderedInsert_cons, if_pos (hfront c' List.mem_cons_self)]
    · have hrest := ih (fun c hc => hrel c (List.mem_cons_of_mem b hc)) hl
      cases hfb : f b with
      | none => rw [List.filterMap_cons_none hfb, List.filterMap_cons_none hfb, hrest]
      | some b' =>
        have hnot : ¬s a' b' := fun h => hab ((hrel b List.mem_cons_self b' hfb).mpr h)
        rw [List.filterMap_cons_some hfb, List.filterMap_cons_some hfb, List.orderedInsert_cons,
          if_neg hnot, hrest]

end PriorityLine
