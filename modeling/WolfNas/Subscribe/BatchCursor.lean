import WolfNas.Lib.Rotation
import WolfNas.Lib.Run
import WolfNas.Lib.Text
import Mathlib.Data.List.Nodup

/-!
# The batches of the subscription search

A round searches a batch of the subscriptions in one state, from a cursor on.  The rounds of
pending and of failed subscriptions of a kind share the cursor, which is a position in whatever
list the last round had.

## Main definitions

* `SearchCursor`, `takeBatch` — the cursor of a kind, in memory and stored, and `_take_batch`.
* `SearchRound`, `SearchRun` — pending and error rounds one after another.
* `SearchRun.Continues` — a pending round starts where the last one ended.

## Main results

* `SearchRun.fair_iff` — every pending subscription is taken in time where every pending round
  starts where the last one ended; and in all interleavings exactly where one batch is enough for
  the pending list or for every error list.
* `SearchRun.starved` — three subscriptions, one a round, and an error list of two.
-/

namespace WolfNas

open Text

/-- `_get_batch_limit`: of the setting, where it is a number. -/
def getBatchLimit (setting : Option ℤ) : ℕ := (max 1 ((setting.filter (· ≠ 0)).getD 20)).toNat

theorem getBatchLimit_pos (setting : Option ℤ) : 0 < getBatchLimit setting := by
  unfold getBatchLimit
  omega

/-- The cursor of a kind: `_batch_cursors`, and the stored one. -/
structure SearchCursor where
  memory : ℤ := 0
  stored : ℤ := 0
  deriving DecidableEq, Repr

/-- `_load_batch_cursor`, before it is reduced by the size: `loads` where the stored one can be
read. -/
def SearchCursor.position (c : SearchCursor) (loads : Bool) : ℕ :=
  (if loads then c.stored else c.memory).toNat

/-- `_take_batch`: the batch, and the cursor after it; `saves` where it can be stored. -/
def takeBatch {α : Type} (c : SearchCursor) (items : List α) (limit : ℕ) (loads saves : Bool) :
    List α × SearchCursor :=
  if items.length ≤ limit then (items, c)
  else
    let start := c.position loads % items.length
    let next : ℤ := ((start + limit) % items.length : ℕ)
    (Rotation.turn items start limit, ⟨next, if saves then next else c.stored⟩)

/-- A round of a kind of subscriptions, in the state PENDING or ERROR. -/
structure SearchRound where
  kind : Text
  error : Bool
  items : List ℕ
  loads : Bool := true
  saves : Bool := true

/-- The cursors, the batches of the pending rounds of each kind, and where the last of them ended. -/
structure SearchRun where
  cursors : Text → SearchCursor := fun _ => {}
  taken : Text → List (List ℕ) := fun _ => []
  ended : Text → Option ℕ := fun _ => none

namespace SearchRun

/-- One round. -/
def step (limit : ℕ) (r : SearchRun) (round : SearchRound) : SearchRun :=
  let (batch, c) := takeBatch (r.cursors round.kind) round.items limit round.loads round.saves
  let r := { r with cursors := Function.update r.cursors round.kind c }
  if round.error then r
  else { r with
    taken := Function.update r.taken round.kind (r.taken round.kind ++ [batch])
    ended := Function.update r.ended round.kind (some c.memory.toNat) }

/-- How many rounds a list needs. -/
def roundsOf (n limit : ℕ) : ℕ := (n + limit - 1) / limit

/-- Every item is in one of so many batches one after another. -/
def Fair (limit : ℕ) (items : List ℕ) (taken : List (List ℕ)) : Prop :=
  ∀ j, j + roundsOf items.length limit ≤ taken.length → ∀ x ∈ items,
    ∃ b ∈ (taken.drop j).take (roundsOf items.length limit), x ∈ b

/-- A pending round of the kind that takes a part of its list starts where the last one ended. -/
def Continues (limit : ℕ) (kind : Text) (r : SearchRun) (round : SearchRound) : Prop :=
  round.kind = kind → round.error = false → limit < round.items.length →
    ∀ p ∈ r.ended kind,
      (r.cursors kind).position round.loads % round.items.length = p % round.items.length

/-- The pending rounds of the kind have this list. -/
def Lists (kind : Text) (pending : List ℕ) (round : SearchRound) : Prop :=
  round.kind = kind → round.error = false → round.items = pending

variable {limit : ℕ} {kind : Text} {pending : List ℕ} {r : SearchRun} {round : SearchRound}

/-! ## One round -/

theorem takeBatch_of_le {c : SearchCursor} {items : List ℕ} {loads saves : Bool}
    (h : items.length ≤ limit) : takeBatch c items limit loads saves = (items, c) := if_pos h

theorem takeBatch_of_lt {c : SearchCursor} {items : List ℕ} {loads saves : Bool}
    (h : limit < items.length) :
    let start := c.position loads % items.length
    let next : ℤ := ((start + limit) % items.length : ℕ)
    takeBatch c items limit loads saves =
      (Rotation.turn items start limit, ⟨next, if saves then next else c.stored⟩) :=
  if_neg (not_le.mpr h)

/-- Rounds of other kinds, and error rounds, take nothing from the list. -/
theorem step_other (h : ¬(round.kind = kind ∧ round.error = false)) :
    (r.step limit round).taken kind = r.taken kind ∧
      (r.step limit round).ended kind = r.ended kind := by
  simp only [step]
  split_ifs with herror
  · exact ⟨rfl, rfl⟩
  · have hne : kind ≠ round.kind := by
      rintro rfl
      exact h ⟨rfl, by simpa using herror⟩
    simp only [Function.update_of_ne hne, and_self]

theorem step_pending (hkind : round.kind = kind) (hpending : round.error = false) :
    (r.step limit round).taken kind = r.taken kind ++
        [(takeBatch (r.cursors kind) round.items limit round.loads round.saves).1] ∧
      (r.step limit round).ended kind = some (takeBatch (r.cursors kind) round.items limit
        round.loads round.saves).2.memory.toNat := by
  subst hkind
  simp [step, hpending]

theorem cursor_step (hkind : round.kind = kind) : (r.step limit round).cursors kind =
    (takeBatch (r.cursors kind) round.items limit round.loads round.saves).2 := by
  subst hkind
  simp only [step]
  split_ifs
  · exact Function.update_self ..
  · exact Function.update_self ..

theorem cursor_step_of_ne (hkind : round.kind ≠ kind) :
    (r.step limit round).cursors kind = r.cursors kind := by
  simp only [step]
  split_ifs
  · exact Function.update_of_ne (Ne.symm hkind) _ _
  · exact Function.update_of_ne (Ne.symm hkind) _ _

/-! ## Rounds that continue -/

/-- The batches are one turn after another, from some start on. -/
def InTurn (limit : ℕ) (kind : Text) (pending : List ℕ) (r : SearchRun) : Prop :=
  ∃ start, r.taken kind = (List.range (r.taken kind).length).map (fun i =>
      Rotation.turn pending ((start + i * limit) % pending.length) limit) ∧
    (r.taken kind ≠ [] →
      r.ended kind = some ((start + (r.taken kind).length * limit) % pending.length)) ∧
    (r.taken kind = [] → r.ended kind = none)

theorem InTurn.step (h : r.InTurn limit kind pending) (hlimit : limit < pending.length)
    (hlists : Lists kind pending round) (hcontinues : Continues limit kind r round) :
    (r.step limit round).InTurn limit kind pending := by
  by_cases hround : round.kind = kind ∧ round.error = false
  · obtain ⟨hkind, hpending⟩ := hround
    have hitems := hlists hkind hpending
    obtain ⟨htaken, hended⟩ := @step_pending limit kind r round hkind hpending
    have hbatch := @takeBatch_of_lt limit (r.cursors kind) round.items round.loads round.saves
      (by rw [hitems]; exact hlimit)
    dsimp only at hbatch
    rw [hbatch] at htaken hended
    obtain ⟨start, hturns, hend, hnone⟩ := h
    -- the turn that is added starts where the others ended, or anywhere
    obtain ⟨start', hturns', hstart⟩ : ∃ start', r.taken kind =
        (List.range (r.taken kind).length).map (fun i =>
          Rotation.turn pending ((start' + i * limit) % pending.length) limit) ∧
        (r.cursors kind).position round.loads % pending.length =
          (start' + (r.taken kind).length * limit) % pending.length := by
      by_cases hempty : r.taken kind = []
      · refine ⟨(r.cursors kind).position round.loads, ?_, ?_⟩
        · simp [hempty]
        · simp [hempty]
      · refine ⟨start, hturns, ?_⟩
        have hcont := hcontinues hkind hpending (by rw [hitems]; exact hlimit) _ (hend hempty)
        rwa [hitems, Nat.mod_mod] at hcont
    refine ⟨start', ?_, ?_, ?_⟩
    · rw [htaken, List.length_append, List.length_singleton, List.range_succ, List.map_append,
        ← hturns', hitems, hstart]
      rfl
    · intro _
      rw [hended, htaken, hitems, hstart, List.length_append, List.length_singleton]
      simp only [Int.toNat_natCast, Nat.mod_add_mod, Nat.succ_mul, Nat.add_assoc]
    · intro hempty
      rw [htaken] at hempty
      simp at hempty
  · obtain ⟨htaken, hended⟩ := @step_other limit kind r round hround
    unfold InTurn
    rw [htaken, hended]
    exact h

/-- Turns one after another are in time. -/
theorem InTurn.fair (h : r.InTurn limit kind pending) (hpos : 0 < limit)
    (hlimit : limit < pending.length) : Fair limit pending (r.taken kind) := by
  obtain ⟨start, hturns, -⟩ := h
  intro j hj x hx
  have hrounds : pending.length ≤ roundsOf pending.length limit * limit := by
    have hdiv := Nat.lt_div_mul_add (a := pending.length + limit - 1) hpos
    rw [roundsOf]
    omega
  obtain ⟨i, hi, hmem⟩ := @Rotation.exists_mem_turn ℕ pending (start + j * limit) limit _ hpos
    hlimit.le hrounds x hx
  refine ⟨_, ?_, hmem⟩
  rw [List.mem_take_iff_getElem]
  refine ⟨i, by simp; omega, ?_⟩
  rw [List.getElem_drop]
  have hlength : j + i < (r.taken kind).length := by omega
  rw [List.getElem_of_eq hturns hlength, List.getElem_map, List.getElem_range, Nat.add_mul,
    ← Nat.add_assoc]

/-- A list that fits in a batch is taken whole. -/
theorem whole_run (hlimit : pending.length ≤ limit) {rounds : List SearchRound}
    (hlists : ∀ round ∈ rounds, Lists kind pending round) :
    ∀ b ∈ (rounds.foldl (step limit) {}).taken kind, b = pending := by
  refine Run.invariant (fun r : SearchRun => ∀ b ∈ r.taken kind, b = pending) (by simp) ?_
  intro r h round hround
  by_cases hkind : round.kind = kind ∧ round.error = false
  · have hitems := hlists round hround hkind.1 hkind.2
    rw [(@step_pending limit kind r round hkind.1 hkind.2).1,
      takeBatch_of_le (by rw [hitems]; exact hlimit)]
    intro b hb
    rcases List.mem_append.mp hb with hb | hb
    · exact h b hb
    · rw [List.mem_singleton.mp hb, hitems]
  · rw [(@step_other limit kind r round hkind).1]
    exact h

theorem fair_of_whole (hpos : 0 < limit) (hlimit : pending.length ≤ limit)
    {taken : List (List ℕ)} (h : ∀ b ∈ taken, b = pending) : Fair limit pending taken := by
  intro j hj x hx
  have hone : roundsOf pending.length limit = 1 := by
    have hlength := List.length_pos_of_mem hx
    rw [roundsOf, Nat.div_eq_iff hpos]
    omega
  rw [hone] at hj ⊢
  have hmem : taken[j] ∈ taken := List.getElem_mem (by omega)
  refine ⟨taken[j], ?_, by rw [h _ hmem]; exact hx⟩
  rw [List.mem_take_iff_getElem]
  exact ⟨0, by simp; omega, by simp⟩

/-- **Every pending subscription** is taken in time in a run whose pending rounds continue. -/
theorem fair_of_along (hpos : 0 < limit) {rounds : List SearchRound}
    (hlists : ∀ round ∈ rounds, Lists kind pending round)
    (hcontinues : Run.Along (step limit) (Continues limit kind) {} rounds) :
    Fair limit pending ((rounds.foldl (step limit) {}).taken kind) := by
  by_cases hlimit : limit < pending.length
  · have hstart : InTurn limit kind pending {} := ⟨0, rfl, fun h => absurd rfl h, fun _ => rfl⟩
    have hrun := Run.invariant_along (InTurn limit kind pending) hstart
      (hcontinues.and_mem hlists) fun r round h hboth => h.step hlimit hboth.2 hboth.1
    exact hrun.fair hpos hlimit
  · exact fair_of_whole hpos (not_lt.mp hlimit) (whole_run (not_lt.mp hlimit) hlists)

/-! ## Error lists that fit in a batch -/

/-- The round has the pending list, or one of the error lists; the stored cursor is read and
written. -/
structure Works (kind : Text) (pending : List ℕ) (errors : List ℕ → Prop) (round : SearchRound) :
    Prop where
  lists : Lists kind pending round
  errors : round.error = true → errors round.items
  loads : round.loads = true
  saves : round.saves = true

/-- The stored cursor is where the last pending round ended. -/
def Kept (kind : Text) (r : SearchRun) : Prop :=
  ∀ p ∈ r.ended kind, (r.cursors kind).stored.toNat = p

theorem Kept.step (h : r.Kept kind) {errors : List ℕ → Prop} (hworks : Works kind pending errors round)
    (hlimit : limit < pending.length) (hsmall : ∀ e, errors e → e.length ≤ limit) :
    (r.step limit round).Kept kind := by
  by_cases hkind : round.kind = kind
  · cases herror : round.error with
    | false =>
      have hitems := hworks.lists hkind herror
      have hbatch := @takeBatch_of_lt limit (r.cursors kind) round.items round.loads round.saves
        (by rw [hitems]; exact hlimit)
      dsimp only at hbatch
      rw [Kept, (@step_pending limit kind r round hkind herror).2, cursor_step hkind, hbatch]
      intro p hp
      rw [← Option.some.inj hp, hworks.saves]
      rfl
    | true =>
      have hfits := hsmall _ (hworks.errors herror)
      rw [Kept, (@step_other limit kind r round (by simp [herror])).2, cursor_step hkind,
        takeBatch_of_le hfits]
      exact h
  · rw [Kept, (@step_other limit kind r round fun hboth => hkind hboth.1).2,
      cursor_step_of_ne hkind]
    exact h

theorem fair_of_small (hpos : 0 < limit) {errors : List ℕ → Prop}
    (hsmall : ∀ e, errors e → e.length ≤ limit) {rounds : List SearchRound}
    (hworks : ∀ round ∈ rounds, Works kind pending errors round) :
    Fair limit pending ((rounds.foldl (step limit) {}).taken kind) := by
  have hlists : ∀ round ∈ rounds, Lists kind pending round := fun round hr => (hworks round hr).lists
  by_cases hlimit : limit < pending.length
  · refine fair_of_along hpos hlists ?_
    have hall : Run.Along (step limit) (fun _ round => Works kind pending errors round) {}
        rounds := Run.along_of_mem hworks
    refine hall.of_invariant (Kept kind) (fun p hp => by cases hp) ?_ ?_
    · intro r round h hround
      exact h.step hround hlimit hsmall
    · intro r round h hround _ _ _ p hp
      rw [SearchCursor.position, hround.loads, if_pos rfl, h p hp]
  · exact fair_of_whole hpos (not_lt.mp hlimit) (whole_run (not_lt.mp hlimit) hlists)

/-! ## Error lists that do not -/

/-- A pending round of the kind. -/
def pendingRound (kind : Text) (pending : List ℕ) : SearchRound :=
  { kind := kind, error := false, items := pending }

/-- An error round of the kind. -/
def errorRound (kind : Text) (items : List ℕ) : SearchRound :=
  { kind := kind, error := true, items := items }

/-- Error rounds move the cursor around their list. -/
theorem cursor_errors {items : List ℕ} (hlimit : limit < items.length)
    (hstart : (r.cursors kind).stored = limit) (j : ℕ) :
    (((List.replicate j (errorRound kind items)).foldl (step limit) r).cursors kind).stored =
        (((j + 1) * limit % items.length : ℕ) : ℤ) ∧
      ((List.replicate j (errorRound kind items)).foldl (step limit) r).taken kind =
        r.taken kind := by
  induction j with
  | zero => simp [hstart, Nat.mod_eq_of_lt hlimit]
  | succ j ih =>
    rw [List.replicate_succ', List.foldl_append, List.foldl_cons, List.foldl_nil]
    obtain ⟨hcursor, htaken⟩ := ih
    refine ⟨?_, ?_⟩
    · rw [@cursor_step limit kind _ (errorRound kind items) rfl]
      change (takeBatch _ items limit true true).2.stored = _
      rw [takeBatch_of_lt hlimit]
      simp only [SearchCursor.position, if_true, hcursor, Int.toNat_natCast, Nat.mod_mod,
        Nat.mod_add_mod, Nat.succ_mul, Nat.add_assoc]
    · rw [(step_other (by simp [errorRound])).1, htaken]

/-- A pending round, and so many error rounds that the cursor is back at the start. -/
def lap (kind : Text) (pending items : List ℕ) : List SearchRound :=
  pendingRound kind pending :: List.replicate (items.length - 1) (errorRound kind items)

theorem lap_run {items : List ℕ} (hpending : limit < pending.length) (hitems : limit < items.length)
    (hstart : (r.cursors kind).stored = 0) :
    (((lap kind pending items).foldl (step limit) r).cursors kind).stored = 0 ∧
      ((lap kind pending items).foldl (step limit) r).taken kind =
        r.taken kind ++ [pending.take limit] := by
  have hbatch := @takeBatch_of_lt limit (r.cursors kind) pending true true hpending
  simp only [SearchCursor.position, if_true, hstart, Int.toNat_zero, Nat.zero_mod, Nat.zero_add,
    Nat.mod_eq_of_lt hpending] at hbatch
  have hturn : Rotation.turn pending 0 limit = pending.take limit := by
    have hlength : (pending.take limit).length = limit := by simp [hpending.le]
    simp [Rotation.turn, hlength]
  have hround : (((r.step limit (pendingRound kind pending)).cursors kind).stored = limit) := by
    rw [@cursor_step limit kind r (pendingRound kind pending) rfl]
    change (takeBatch (r.cursors kind) pending limit true true).2.stored = limit
    rw [hbatch]
  obtain ⟨hcursor, htaken⟩ := cursor_errors hitems hround (items.length - 1)
  rw [lap, List.foldl_cons]
  refine ⟨?_, ?_⟩
  · rw [hcursor, Nat.sub_add_cancel (by omega), Nat.mul_mod_right]
    rfl
  · rw [htaken, (@step_pending limit kind r (pendingRound kind pending) rfl rfl).1]
    change r.taken kind ++ [(takeBatch (r.cursors kind) pending limit true true).1] = _
    rw [hbatch, hturn]

/-- Lap after lap, the pending rounds take the same batch. -/
theorem laps_run {items : List ℕ} (hpending : limit < pending.length)
    (hitems : limit < items.length) (k : ℕ) :
    ((((List.replicate k (lap kind pending items)).flatten).foldl (step limit) {}).cursors
        kind).stored = 0 ∧
      (((List.replicate k (lap kind pending items)).flatten).foldl (step limit) {}).taken kind =
        List.replicate k (pending.take limit) := by
  induction k with
  | zero => exact ⟨rfl, rfl⟩
  | succ k ih =>
    rw [List.replicate_succ', List.flatten_append, List.foldl_append, List.flatten_singleton]
    obtain ⟨hcursor, htaken⟩ := lap_run hpending hitems ih.1
    refine ⟨hcursor, ?_⟩
    rw [htaken, ih.2, List.replicate_succ']

/-- The item after the first batch is never taken. -/
theorem not_fair_laps {items : List ℕ} (hnodup : pending.Nodup) (hpending : limit < pending.length)
    (hitems : limit < items.length) : ¬Fair limit pending
      ((((List.replicate (roundsOf pending.length limit) (lap kind pending items)).flatten).foldl
        (step limit) {}).taken kind) := by
  rw [(laps_run hpending hitems _).2]
  intro hfair
  obtain ⟨b, hb, hmem⟩ := hfair 0 (by simp) pending[limit] (List.getElem_mem hpending)
  have hbatch : b = pending.take limit :=
    List.eq_of_mem_replicate (List.mem_of_mem_drop (List.mem_of_mem_take hb))
  rw [hbatch, List.mem_take_iff_getElem] at hmem
  obtain ⟨i, hi, heq⟩ := hmem
  have hsame := (hnodup.getElem_inj_iff).mp heq
  omega

/-- **Every pending subscription** is taken within as many pending rounds as its list needs, in
every run whose pending rounds start where the last one ended; and in every interleaving with error
rounds exactly where the pending list, or each error list, fits in one batch. -/
theorem fair_iff (setting : Option ℤ) (kind : Text) (pending : {l : List ℕ // l.Nodup})
    (errors : List ℕ → Prop) :
    let limit := getBatchLimit setting
    (∀ rounds : List SearchRound, (∀ round ∈ rounds, Lists kind pending round) →
      Run.Along (step limit) (Continues limit kind) {} rounds →
      Fair limit pending ((rounds.foldl (step limit) {}).taken kind)) ∧
    ((∀ rounds : List SearchRound, (∀ round ∈ rounds, Works kind pending errors round) →
      Fair limit pending ((rounds.foldl (step limit) {}).taken kind)) ↔
        pending.1.length ≤ limit ∨ ∀ items, errors items → items.length ≤ limit) := by
  intro limit
  have hpos : 0 < limit := getBatchLimit_pos setting
  refine ⟨fun rounds => fair_of_along hpos, ?_, ?_⟩
  · intro h
    by_contra hnot
    rw [not_or, not_le] at hnot
    obtain ⟨hpending, hlong⟩ := hnot
    push Not at hlong
    obtain ⟨items, herrors, hitems⟩ := hlong
    refine not_fair_laps pending.2 hpending hitems (h _ ?_)
    intro round hround
    obtain ⟨l, hl, hround⟩ := List.mem_flatten.mp hround
    rw [List.eq_of_mem_replicate hl, lap] at hround
    rcases List.mem_cons.mp hround with rfl | hround
    · exact ⟨fun _ _ => rfl, fun herror => (by cases herror), rfl, rfl⟩
    · rw [List.eq_of_mem_replicate hround]
      exact ⟨fun _ herror => (by cases herror), fun _ => herrors, rfl, rfl⟩
  · rintro (hpending | hsmall) rounds hworks
    · exact fair_of_whole hpos hpending (whole_run hpending fun round hr => (hworks round hr).lists)
    · exact fair_of_small hpos hsmall hworks

/-- A pending round of three subscriptions, and an error round of two others, twice. -/
def twoLists : List SearchRound :=
  [pendingRound (of "movie") [1, 2, 3], errorRound (of "movie") [4, 5],
    pendingRound (of "movie") [1, 2, 3], errorRound (of "movie") [4, 5],
    pendingRound (of "movie") [1, 2, 3]]

/-- With one subscription a round, the first of three is taken three times. -/
theorem starved : ¬Fair (getBatchLimit (some 1)) [1, 2, 3]
    ((twoLists.foldl (step (getBatchLimit (some 1))) {}).taken (of "movie")) := by
  intro h
  obtain ⟨b, hb, hmem⟩ := h 0 (by decide +kernel) 2 (by decide)
  revert b
  decide +kernel

end SearchRun

end WolfNas
