import WolfNas.Brush.Removal
import WolfNas.Lib.Observed
import Mathlib.Algebra.BigOperators.Group.List.Basic
import Mathlib.Algebra.Group.Prod

/-!
# The totals of a task

A round that goes through writes the task's totals: what the listed torrents have up- and
downloaded, and what is kept in the records of the deleted ones.

## Main definitions

* `ListedRound` — a round whose downloader lists every torrent once, under its own id.
* `BrushTally` — a task, with what was last observed of every torrent ever seen.
* `BrushTally.Tallied` — the totals are the sum of these.
* `BrushTally.Balanced` — the condition on a round.

## Main results

* `BrushTask.round_totals` — what a round writes.
* `BrushTally.tallied_iff` — the totals are right in every state of a run exactly where every
  round meets the condition.
-/

namespace WolfNas

open Text

/-- What a torrent has up- and downloaded. -/
def BrushTorrent.bytes (t : BrushTorrent) : ℕ × ℕ := (t.uploaded, t.downloaded)

/-- The downloader lists every torrent once, and none under the id of the deleted ones. -/
structure ListedRound extends BrushRound where
  nodup : ∀ torrents, reported = some torrents → (torrents.map BrushTorrent.id).Nodup
  named : ∀ torrents, reported = some torrents → tombstoneId ∉ torrents.map BrushTorrent.id

theorem sum_map_filter_of_zero {α M : Type} [AddCommMonoid M] {p : α → Bool} {f : α → M}
    {l : List α} (h : ∀ x ∈ l, p x = false → f x = 0) : ((l.filter p).map f).sum = (l.map f).sum := by
  induction l with
  | nil => rfl
  | cons x l ih =>
    have htail := ih fun y hy => h y (List.mem_cons_of_mem x hy)
    by_cases hx : p x = true
    · simp [hx, htail]
    · have hzero : f x = 0 := h x List.mem_cons_self (Bool.eq_false_iff.mpr hx)
      simp [hx, hzero, htail]

namespace BrushTask

variable (s : BrushTask) (r : BrushRound) (torrents : List BrushTorrent)

/-- The up- and download total. -/
def totals : ℕ × ℕ := (s.uploadSize, s.downloadSize)

/-- What is kept in the records of the deleted torrents. -/
def removedTotals : ℕ × ℕ := (s.records.map removedSize).sum

/-- The round goes through to the totals. -/
def Counts : Prop := r.matched torrents = [] ∨ s.deletes r torrents = true

instance : Decidable (s.Counts r torrents) := by unfold Counts; infer_instance

/-- What a torrent that is taken for deleted has, by the id of a record. -/
def deletedBytes (done : List BrushTorrent) (id : Text) : ℕ × ℕ :=
  match done.find? fun t => t.id = id with
  | none => 0
  | some t => t.bytes

/-- What the records that the round rewrites are given to keep. -/
def newlyRemoved : ℕ × ℕ :=
  if s.deletes r torrents then
    (s.records.map fun x => deletedBytes (s.deleted r torrents) x.downloadId).sum
  else 0

variable {s r torrents}

/-! ## What a round writes -/

theorem totals_addUploadCount (removed : ℕ) :
    (s.addUploadCount torrents removed).totals =
      (torrents.map BrushTorrent.bytes).sum + s.removedTotals := by
  have hlisted : (torrents.map BrushTorrent.bytes).sum =
      ((torrents.map BrushTorrent.uploaded).sum, (torrents.map BrushTorrent.downloaded).sum) := by
    induction torrents with
    | nil => rfl
    | cons t l ih => simp [ih, BrushTorrent.bytes]
  have hremoved : s.removedTotals = ((s.records.map fun x => (removedSize x).1).sum,
      (s.records.map fun x => (removedSize x).2).sum) := by
    rw [removedTotals]
    induction s.records with
    | nil => rfl
    | cons x l ih => simp [ih, Prod.ext_iff]
  rw [hlisted, hremoved]
  rfl

theorem deletedBytes_of_not_mem {done : List BrushTorrent} {id : Text}
    (h : id ∉ done.map BrushTorrent.id) : deletedBytes done id = 0 := by
  have hnone : (done.find? fun t => t.id = id) = none := by
    rw [List.find?_eq_none]
    intro t ht heq
    exact h (List.mem_map.mpr ⟨t, ht, by simpa using heq⟩)
  rw [deletedBytes, hnone]

theorem deleted_subset {id : Text} (h : id ∈ (s.deleted r torrents).map BrushTorrent.id) :
    id ∈ torrents.map BrushTorrent.id := by
  rw [List.mem_map] at h
  obtain ⟨t, ht, rfl⟩ := h
  exact List.mem_map_of_mem (r.mem_matched (List.mem_of_mem_filter ht))

/-- The record of a torrent that the downloader lacks keeps nothing. -/
theorem removedSize_of_live {x : BrushRecord} (h : x.downloadId ≠ tombstoneId) :
    removedSize x = 0 := by
  rw [removedSize, if_neg h]
  rfl

theorem removedTotals_dropAbsent : (s.dropAbsent torrents).removedTotals = s.removedTotals := by
  refine sum_map_filter_of_zero ?_
  intro x _ hx
  simp only [liveIds, decide_eq_false_iff_not, not_or, not_not, List.mem_filter,
    decide_eq_true_eq] at hx
  exact removedSize_of_live hx.1.2.1

/-- A rewritten record keeps what its torrent has; the others keep what they kept. -/
theorem removedSize_tombstone {done : List BrushTorrent} {x : BrushRecord}
    (h : tombstoneId ∉ done.map BrushTorrent.id) :
    removedSize (tombstone done x) = removedSize x + deletedBytes done x.downloadId := by
  rw [tombstone, deletedBytes]
  cases hfind : done.find? fun t => t.id = x.downloadId with
  | none => simp
  | some t =>
    have hid : t.id = x.downloadId := by simpa using List.find?_some hfind
    have hmem : t.id ∈ done.map BrushTorrent.id :=
      List.mem_map_of_mem (List.mem_of_find?_eq_some hfind)
    have hlive : x.downloadId ≠ tombstoneId := fun heq => h (heq ▸ hid ▸ hmem)
    rw [removedSize_of_live hlive, zero_add]
    simp [removedSize, BrushTorrent.bytes]

theorem sum_removedSize_tombstone {done : List BrushTorrent}
    (h : tombstoneId ∉ done.map BrushTorrent.id) (l : List BrushRecord) :
    ((l.map (tombstone done)).map removedSize).sum =
      (l.map removedSize).sum + (l.map fun x => deletedBytes done x.downloadId).sum := by
  induction l with
  | nil => rfl
  | cons x l ih =>
    simp only [List.map_cons, List.sum_cons, ih, removedSize_tombstone h]
    exact add_add_add_comm _ _ _ _

/-- The records that the round drops are not rewritten. -/
theorem newlyRemoved_eq (h : s.deletes r torrents = true) :
    s.newlyRemoved r torrents = ((s.dropAbsent torrents).records.map fun x =>
      deletedBytes (s.deleted r torrents) x.downloadId).sum := by
  rw [newlyRemoved, if_pos h]
  refine (sum_map_filter_of_zero ?_).symm
  intro x _ hx
  refine deletedBytes_of_not_mem ?_
  intro hmem
  have hreported := deleted_subset hmem
  simp only [decide_eq_false_iff_not, not_or] at hx
  exact hx.2 hreported

/-- **What a round writes**: what is listed, what was kept of deleted torrents, and what it
deletes itself. -/
theorem round_totals (h : s.found r = some torrents)
    (hnamed : tombstoneId ∉ torrents.map BrushTorrent.id) :
    (s.round r).totals = if s.Counts r torrents then
      (torrents.map BrushTorrent.bytes).sum + (s.removedTotals + s.newlyRemoved r torrents)
    else s.totals := by
  simp only [round, h]
  by_cases hnil : r.matched torrents = []
  · have hdel : s.deletes r torrents = false := by simp [deletes, hnil]
    have hcounts : s.Counts r torrents := .inl hnil
    have hnone : s.newlyRemoved r torrents = 0 := by simp [newlyRemoved, hdel]
    rw [if_pos hnil, if_pos hcounts, totals_addUploadCount, hnone, add_zero]
    congr 1
    exact removedTotals_dropAbsent
  · rw [if_neg hnil]
    by_cases hdel : s.deletes r torrents = true
    · have hcounts : s.Counts r torrents := .inr hdel
      have hdone : tombstoneId ∉ (s.deleted r torrents).map BrushTorrent.id :=
        fun hmem => hnamed (deleted_subset hmem)
      rw [if_pos hdel, if_pos hcounts, totals_addUploadCount, newlyRemoved_eq hdel,
        ← @removedTotals_dropAbsent s torrents]
      congr 1
      exact sum_removedSize_tombstone hdone _
    · have hcounts : ¬s.Counts r torrents := by simp [Counts, hnil, hdel]
      rw [if_neg hdel, if_neg hcounts]
      rfl

end BrushTask

/-! ## Runs -/

/-- The up- and download of every listed torrent. -/
def listing (torrents : List BrushTorrent) : List (Text × ℕ × ℕ) :=
  torrents.map fun t => (t.id, t.bytes)

/-- A task, with what was last observed of every torrent ever seen. -/
structure BrushTally where
  task : BrushTask := {}
  observed : Observed Text (ℕ × ℕ) := .none

/-- A torrent is added to the task, or the task's torrents are gone through. -/
inductive TallyMove
  | add (x : BrushRecord)
  | round (r : ListedRound)

namespace BrushTally

variable (w : BrushTally)

/-- A round; what the downloader lists is observed. -/
def round (r : BrushRound) : BrushTally :=
  match w.task.found r with
  | none => { w with task := w.task.round r }
  | some torrents => ⟨w.task.round r, w.observed.observe (listing torrents)⟩

/-- One move. -/
def step (w : BrushTally) : TallyMove → BrushTally
  | .add x => { w with task := w.task.insert x }
  | .round r => w.round r.toBrushRound

/-- The totals are the sum of what was last observed of every torrent ever seen. -/
def Tallied : Prop := w.task.totals = w.observed.total

/-- Where the round goes through, what was kept of deleted torrents, with what the round adds to
it, is what the torrents that are not listed any more had.  Where it ends before, the listed
torrents have together what they had. -/
def Balanced (w : BrushTally) : TallyMove → Prop
  | .add _ => True
  | .round r => ∀ torrents, w.task.found r.toBrushRound = some torrents →
      if w.task.Counts r.toBrushRound torrents then
        w.task.removedTotals + w.task.newlyRemoved r.toBrushRound torrents =
          w.observed.unlisted (listing torrents)
      else (torrents.map BrushTorrent.bytes).sum = (torrents.map fun t => w.observed.last t.id).sum

variable {w}

theorem insert_totals (s : BrushTask) (x : BrushRecord) : (s.insert x).totals = s.totals := by
  rw [BrushTask.insert]
  split_ifs
  · rfl
  · rfl

theorem step_tallied_iff (hw : w.Tallied) (move : TallyMove) :
    (w.step move).Tallied ↔ w.Balanced move := by
  cases move with
  | add x =>
    simp only [step, Balanced, Tallied, insert_totals, iff_true]
    exact hw
  | round r =>
    cases h : w.task.found r.toBrushRound with
    | none =>
      have hsame : w.round r.toBrushRound = w := by simp [round, BrushTask.round, h]
      simp only [step, Balanced, hsame, h, reduceCtorEq, false_implies, implies_true, iff_true]
      exact hw
    | some torrents =>
      have hreported : r.reported = some torrents := by
        rw [BrushTask.found] at h
        split_ifs at h
        exact h
      have hkeys : (listing torrents).map Prod.fst = torrents.map BrushTorrent.id := by
        simp [listing]
      have hnodup : ((listing torrents).map Prod.fst).Nodup := hkeys ▸ r.nodup torrents hreported
      have hvalues : (listing torrents).map Prod.snd = torrents.map BrushTorrent.bytes := by
        simp [listing]
      have hlast : ((listing torrents).map fun e => w.observed.last e.1) =
          torrents.map fun t => w.observed.last t.id := by
        simp [listing]
      simp only [step, Balanced, h, Option.some.injEq, forall_eq']
      simp only [Tallied, round, h, w.observed.total_observe _ hnodup, hvalues,
        BrushTask.round_totals h (r.named torrents hreported)]
      split_ifs with hcounts
      · exact add_right_inj _
      · -- the totals are still those before, so compare what the listed torrents had
        have hbefore : w.task.totals = (torrents.map fun t => w.observed.last t.id).sum +
            w.observed.unlisted (listing torrents) := by
          rw [← hlast, ← w.observed.total_eq _ hnodup]
          exact hw
        rw [hbefore, add_left_inj]
        exact eq_comm

/-- **Along every run of a task**, the totals are the sum of what was last observed of every
torrent ever seen, exactly where every round meets the condition. -/
theorem tallied_iff (moves : List TallyMove) :
    (∀ n, ((moves.take n).foldl step {}).Tallied) ↔ Run.Along step Balanced {} moves := by
  have hstart : ({} : BrushTally).Tallied := rfl
  rw [Run.along_step_iff, and_iff_right hstart]
  refine Run.along_congr_of_kept Tallied ?_ ?_ hstart
  · intro w move hw
    exact step_tallied_iff hw move
  · intro w move _ hstep
    exact hstep

/-- A round that lists one torrent, and deletes it. -/
def deletedOnce : ListedRound where
  reported := some [⟨of "a", true, 5, 3⟩]
  needDelete := fun _ _ => true
  nodup := by
    rintro torrents ⟨rfl⟩
    simp
  named := by
    rintro torrents ⟨rfl⟩
    decide

/-- The torrent that a round deletes is counted twice, and no later round corrects it. -/
theorem deleted_counted_twice :
    let moves : List TallyMove := [.add ⟨of "first", of "u1", of "a", .blank⟩, .round deletedOnce,
      .round deletedOnce]
    ¬(∀ n, ((moves.take n).foldl step {}).Tallied) ∧
      (moves.foldl step {}).task.totals = (10, 6) ∧ (moves.foldl step {}).observed.total = (5, 3) := by
  refine ⟨?_, by decide +kernel, by decide +kernel⟩
  intro htallied
  have hend := htallied 3
  revert hend
  unfold Tallied
  decide +kernel

end BrushTally

end WolfNas
