import WolfNas.Brush.Removal

/-!
# What is recorded as deleted

A round writes a record of deletion, and rewrites the record of a torrent as that of a deleted
one.  Both are right for a torrent that was handed to the downloader and that the downloader did
not have afterwards.

## Main definitions

* `BrushWatch` — a task, with what was handed over, confirmed gone and rewritten so far.
* `BrushWatch.Accounted` — what is recorded as deleted is confirmed gone.
* `BrushWatch.KeepsCutOff` — what is beyond the day's limit keeps its record.
* `BrushWatch.Clear` — the condition on a round.

## Main results

* `BrushWatch.accounted_iff` — along a run, both hold exactly where every round meets the
  condition.
-/

namespace WolfNas

open Text

namespace BrushTask

variable (s : BrushTask) (r : BrushRound) (torrents : List BrushTorrent)

/-! ## One round -/

/-- The torrent comes within what is left of the day's limit. -/
def WithinLimit (id : Text) : Prop :=
  match s.allowance r with
  | none => True
  | some left => id ∈ (r.matchedIds torrents).take left

/-- The ids handed over that the downloader does not have when it is asked again. -/
def confirmedGone : List Text :=
  match r.remaining with
  | none => []
  | some l => if s.deletes r torrents then (s.submitted r torrents).filter fun id => id ∉ l else []

/-- The ids of the records that are rewritten as those of deleted torrents. -/
def tombstonedIds : List Text :=
  if s.deletes r torrents then
    ((s.dropAbsent torrents).records.map BrushRecord.downloadId).filter fun id =>
      id ∈ (s.deleted r torrents).map BrushTorrent.id
  else []

variable {s r torrents}

theorem mem_submitted_iff {id : Text} :
    id ∈ s.submitted r torrents ↔ id ∈ r.matchedIds torrents ∧ s.WithinLimit r torrents id := by
  rw [submitted, WithinLimit]
  cases s.allowance r with
  | none => simp
  | some left => exact ⟨fun h => ⟨List.mem_of_mem_take h, h⟩, fun h => h.2⟩

/-- A round that hands a torrent over reaches the downloader, unless the deletion raises. -/
theorem deletes_of_mem {id : Text} (h : id ∈ s.submitted r torrents) :
    s.deletes r torrents = true ↔ r.deleteRaises = false := by
  have hmatched : r.matched torrents ≠ [] := by
    intro hnil
    have hid := (mem_submitted_iff.mp h).1
    simp [BrushRound.matchedIds, hnil] at hid
  have hleft : s.allowance r ≠ some 0 := by
    intro hzero
    simp [submitted, hzero] at h
  simp [deletes, hmatched, hleft]

theorem mem_confirmedGone_iff {id : Text} :
    id ∈ s.confirmedGone r torrents ↔ id ∈ s.submitted r torrents ∧ r.deleteRaises = false ∧
      ∃ l, r.remaining = some l ∧ id ∉ l := by
  rw [confirmedGone]
  cases r.remaining with
  | none => simp
  | some l =>
    by_cases hid : id ∈ s.submitted r torrents
    · by_cases hdel : s.deletes r torrents = true
      · simp [hdel, hid, (deletes_of_mem hid).mp hdel]
      · have hraises : r.deleteRaises ≠ false := fun h => hdel ((deletes_of_mem hid).mpr h)
        simp [hdel, hraises]
    · have hnot : id ∉ (s.submitted r torrents).filter fun id => id ∉ l :=
        fun h => hid (List.mem_of_mem_filter h)
      split_ifs
      · simp [hid]
      · simp [hid]

theorem mem_deleted_iff {id : Text} :
    id ∈ (s.deleted r torrents).map BrushTorrent.id ↔
      id ∈ r.matchedIds torrents ∧ id ∉ s.failed r torrents := by
  simp only [deleted, BrushRound.matchedIds, List.mem_map, List.mem_filter, decide_eq_true_eq]
  constructor
  · rintro ⟨t, ⟨ht, hnot⟩, rfl⟩
    exact ⟨⟨t, ht, rfl⟩, hnot⟩
  · rintro ⟨⟨t, ht, rfl⟩, hnot⟩
    exact ⟨t, ⟨ht, hnot⟩, rfl⟩

theorem mem_reported_of_matched {id : Text} (h : id ∈ r.matchedIds torrents) :
    id ∈ torrents.map BrushTorrent.id := by
  rw [BrushRound.matchedIds, List.mem_map] at h
  obtain ⟨t, ht, rfl⟩ := h
  exact List.mem_map_of_mem (r.mem_matched ht)

theorem tombstonedIds_subset {id : Text} (h : id ∈ s.tombstonedIds r torrents) :
    id ∈ r.matchedIds torrents := by
  rw [tombstonedIds] at h
  split_ifs at h
  · rw [List.mem_filter, decide_eq_true_eq] at h
    exact (mem_deleted_iff.mp h.2).1
  · simp at h

theorem round_deleteEvents (h : s.found r = some torrents) :
    (s.round r).deleteEvents = s.deleteEvents ++ r.matchedIds torrents := by
  simp only [round, h]
  split_ifs with hnil
  · simp [addUploadCount, dropAbsent]
  · simp [addUploadCount, dropAbsent, countDeletes]
  · simp [dropAbsent, countDeletes]

/-- The records after a round that goes on. -/
theorem round_records (h : s.found r = some torrents) :
    (s.round r).records = if s.deletes r torrents then
      (s.dropAbsent torrents).records.map (tombstone (s.deleted r torrents))
    else (s.dropAbsent torrents).records := by
  simp only [round, h]
  by_cases hnil : r.matched torrents = []
  · have hdel : s.deletes r torrents = false := by simp [deletes, hnil]
    simp [hnil, hdel, addUploadCount, dropAbsent, liveIds]
  · simp only [if_neg hnil]
    split_ifs
    · simp [addUploadCount, dropAbsent, countDeletes, liveIds]
    · simp [dropAbsent, countDeletes, liveIds]

theorem tombstone_of_not_mem {done : List BrushTorrent} {x : BrushRecord}
    (h : x.downloadId ∉ done.map BrushTorrent.id) : tombstone done x = x := by
  have hnone : (done.find? fun t => t.id = x.downloadId) = none := by
    rw [List.find?_eq_none]
    intro t ht heq
    exact h (List.mem_map.mpr ⟨t, ht, by simpa using heq⟩)
  rw [tombstone, hnone]

theorem tombstone_of_mem {done : List BrushTorrent} {x : BrushRecord}
    (h : x.downloadId ∈ done.map BrushTorrent.id) : (tombstone done x).downloadId = tombstoneId := by
  rw [List.mem_map] at h
  obtain ⟨t, ht, hid⟩ := h
  have hsome : (done.find? fun t => t.id = x.downloadId).isSome := by
    rw [List.find?_isSome]
    exact ⟨t, ht, by simpa using hid⟩
  obtain ⟨t', ht'⟩ := Option.isSome_iff_exists.mp hsome
  rw [tombstone, ht']

/-- The record of a torrent that the downloader has is kept, unless the torrent is taken for
deleted. -/
theorem mem_round_records {x : BrushRecord} (h : s.found r = some torrents) (hx : x ∈ s.records)
    (hlive : x.downloadId ≠ tombstoneId) (hreported : x.downloadId ∈ torrents.map BrushTorrent.id) :
    x ∈ (s.round r).records ↔
      ¬(s.deletes r torrents = true ∧ x.downloadId ∈ (s.deleted r torrents).map BrushTorrent.id) := by
  have hkept : x ∈ (s.dropAbsent torrents).records := by
    simp only [dropAbsent, List.mem_filter, decide_eq_true_eq]
    exact ⟨hx, .inr hreported⟩
  rw [round_records h]
  by_cases hdel : s.deletes r torrents = true
  · rw [if_pos hdel]
    constructor
    · rintro hmem ⟨-, hdeleted⟩
      rw [List.mem_map] at hmem
      obtain ⟨y, hy, hyx⟩ := hmem
      by_cases hyd : y.downloadId ∈ (s.deleted r torrents).map BrushTorrent.id
      · exact hlive (hyx ▸ tombstone_of_mem hyd)
      · rw [tombstone_of_not_mem hyd] at hyx
        subst hyx
        exact hyd hdeleted
    · intro hnot
      have hx' : x.downloadId ∉ (s.deleted r torrents).map BrushTorrent.id :=
        fun hd => hnot ⟨hdel, hd⟩
      exact List.mem_map.mpr ⟨x, hkept, tombstone_of_not_mem hx'⟩
  · simp [hdel, hkept]

end BrushTask

/-! ## Runs -/

/-- A task, with what has been handed over, confirmed gone and rewritten so far. -/
structure BrushWatch where
  task : BrushTask
  handed : List Text := []
  confirmed : List Text := []
  tombstoned : List Text := []

/-- A torrent is added to the task, or the task's torrents are gone through. -/
inductive BrushMove
  | add (x : BrushRecord)
  | round (r : BrushRound)

namespace BrushWatch

variable (w : BrushWatch)

/-- A task before its first deletion. -/
def start (s : BrushTask) : BrushWatch := { task := { s with deleteEvents := [] } }

/-- A round.  An id handed over before is confirmed gone when the downloader's answer lacks it. -/
def round (r : BrushRound) : BrushWatch :=
  match w.task.found r with
  | none => { w with task := w.task.round r }
  | some torrents =>
    { task := w.task.round r
      handed := w.handed ++ w.task.submitted r torrents
      confirmed := w.confirmed ++ ((w.task.absentIds torrents).filter fun id => id ∈ w.handed) ++
        w.task.confirmedGone r torrents
      tombstoned := w.tombstoned ++ w.task.tombstonedIds r torrents }

/-- One move. -/
def step (w : BrushWatch) : BrushMove → BrushWatch
  | .add x => { w with task := w.task.insert x }
  | .round r => w.round r

/-- What is recorded as deleted was handed over, and is confirmed gone. -/
def Accounted : Prop :=
  (∀ id ∈ w.task.deleteEvents, id ∈ w.confirmed) ∧ ∀ id ∈ w.tombstoned, id ∈ w.confirmed

instance : Decidable w.Accounted := by unfold Accounted; infer_instance

/-- A torrent that the limit cuts off keeps its record. -/
def KeepsCutOff (w : BrushWatch) : BrushMove → Prop
  | .add _ => True
  | .round r => ∀ torrents, w.task.found r = some torrents → ∀ x ∈ w.task.records,
      x.downloadId ≠ tombstoneId → x.downloadId ∈ r.matchedIds torrents →
        ¬w.task.WithinLimit r torrents x.downloadId → x ∈ (w.task.round r).records

/-- What matches a rule comes within the limit and is gone after its deletion, or was confirmed
gone before.  What is beyond the limit is still there when the downloader is asked again, unless
nothing is deleted at all. -/
structure ClearRound (r : BrushRound) (torrents : List BrushTorrent) : Prop where
  gone : ∀ id ∈ r.matchedIds torrents, id ∈ w.confirmed ∨
    w.task.WithinLimit r torrents id ∧ r.deleteRaises = false ∧ ∃ l, r.remaining = some l ∧ id ∉ l
  still : ∀ x ∈ w.task.records, x.downloadId ≠ tombstoneId →
    x.downloadId ∈ r.matchedIds torrents → ¬w.task.WithinLimit r torrents x.downloadId →
      w.task.allowance r = some 0 ∨ r.deleteRaises = true ∨
        ∃ l, r.remaining = some l ∧ x.downloadId ∈ l

/-- The condition on a move. -/
def Clear (w : BrushWatch) : BrushMove → Prop
  | .add _ => True
  | .round r => ∀ torrents, w.task.found r = some torrents → w.ClearRound r torrents

variable {w}

theorem step_accounted_iff {r : BrushRound} {torrents : List BrushTorrent}
    (h : w.task.found r = some torrents) (hw : w.Accounted) :
    (w.round r).Accounted ↔ ∀ id ∈ r.matchedIds torrents, id ∈ w.confirmed ∨
      w.task.WithinLimit r torrents id ∧ r.deleteRaises = false ∧
        ∃ l, r.remaining = some l ∧ id ∉ l := by
  -- what is reported cannot be among the ids that the answer lacks
  have hmem : ∀ id ∈ r.matchedIds torrents, id ∈ (w.round r).confirmed ↔ id ∈ w.confirmed ∨
      w.task.WithinLimit r torrents id ∧ r.deleteRaises = false ∧
        ∃ l, r.remaining = some l ∧ id ∉ l := by
    intro id hid
    have habsent : id ∉ w.task.absentIds torrents := by
      simp only [BrushTask.absentIds, List.mem_filter, not_and, decide_eq_true_eq, not_not]
      exact fun _ => BrushTask.mem_reported_of_matched hid
    simp only [round, h, List.mem_append, BrushTask.mem_confirmedGone_iff,
      BrushTask.mem_submitted_iff]
    simp [habsent, hid]
  constructor
  · intro haccounted id hid
    refine (hmem id hid).mp (haccounted.1 id ?_)
    simp only [round, h, BrushTask.round_deleteEvents h, List.mem_append]
    exact .inr hid
  · intro hgone
    have hold : ∀ id ∈ w.confirmed, id ∈ (w.round r).confirmed := by
      intro id hid
      simp only [round, h, List.mem_append]
      exact .inl (.inl hid)
    have hnew : ∀ id ∈ r.matchedIds torrents, id ∈ (w.round r).confirmed :=
      fun id hid => (hmem id hid).mpr (hgone id hid)
    constructor
    · intro id hid
      simp only [round, h, BrushTask.round_deleteEvents h, List.mem_append] at hid
      rcases hid with hid | hid
      · exact hold id (hw.1 id hid)
      · exact hnew id hid
    · intro id hid
      simp only [round, h, List.mem_append] at hid
      rcases hid with hid | hid
      · exact hold id (hw.2 id hid)
      · exact hnew id (BrushTask.tombstonedIds_subset hid)

/-- A record that is cut off is kept where nothing is deleted, or the downloader still has its
torrent. -/
theorem cut_off_kept_iff {r : BrushRound} {torrents : List BrushTorrent} {x : BrushRecord}
    (h : w.task.found r = some torrents) (hx : x ∈ w.task.records)
    (hlive : x.downloadId ≠ tombstoneId) (hmatched : x.downloadId ∈ r.matchedIds torrents)
    (hcut : ¬w.task.WithinLimit r torrents x.downloadId) :
    x ∈ (w.task.round r).records ↔ w.task.allowance r = some 0 ∨ r.deleteRaises = true ∨
      ∃ l, r.remaining = some l ∧ x.downloadId ∈ l := by
  have hnil : r.matched torrents ≠ [] := by
    intro hnil
    simp [BrushRound.matchedIds, hnil] at hmatched
  have hsubmitted : x.downloadId ∉ w.task.submitted r torrents :=
    fun hs => hcut (BrushTask.mem_submitted_iff.mp hs).2
  have hfailed : x.downloadId ∈ w.task.failed r torrents ↔
      ∃ l, r.remaining = some l ∧ x.downloadId ∈ l := by
    rw [BrushTask.failed]
    cases r.remaining with
    | none => simp [hsubmitted]
    | some l => simp
  rw [BrushTask.mem_round_records h hx hlive (BrushTask.mem_reported_of_matched hmatched),
    BrushTask.mem_deleted_iff, ← hfailed]
  simp only [BrushTask.deletes, decide_eq_true_eq, ne_eq, hnil, hmatched, not_false_eq_true,
    true_and]
  rw [← Bool.not_eq_true]
  tauto

theorem clear_iff (hw : w.Accounted) (move : BrushMove) :
    (w.step move).Accounted ∧ w.KeepsCutOff move ↔ w.Clear move := by
  cases move with
  | add x =>
    have hadd : (w.task.insert x).deleteEvents = w.task.deleteEvents := by
      rw [BrushTask.insert]
      split_ifs
      · rfl
      · rfl
    simp only [step, KeepsCutOff, Clear, Accounted, hadd, and_true, iff_true]
    exact hw
  | round r =>
    cases h : w.task.found r with
    | none =>
      have hsame : w.round r = w := by simp [round, BrushTask.round, h]
      simp [step, KeepsCutOff, Clear, h, hsame, hw]
    | some torrents =>
      simp only [step, KeepsCutOff, Clear, h, Option.some.injEq, forall_eq']
      rw [step_accounted_iff h hw]
      constructor
      · rintro ⟨hgone, hkept⟩
        refine ⟨hgone, ?_⟩
        intro x hx hlive hmatched hcut
        exact (cut_off_kept_iff h hx hlive hmatched hcut).mp (hkept x hx hlive hmatched hcut)
      · intro hclear
        refine ⟨hclear.gone, ?_⟩
        intro x hx hlive hmatched hcut
        exact (cut_off_kept_iff h hx hlive hmatched hcut).mpr
          (hclear.still x hx hlive hmatched hcut)

/-- **Along every run of a task**, what is recorded as deleted was handed over and confirmed
gone, and what the limit cuts off keeps its record, exactly where every round meets the
condition. -/
theorem accounted_iff (s : BrushTask) (moves : List BrushMove) :
    ((∀ n, ((moves.take n).foldl step (start s)).Accounted) ∧
      Run.Along step KeepsCutOff (start s) moves) ↔ Run.Along step Clear (start s) moves := by
  have hstart : (start s).Accounted := by simp [Accounted, start]
  rw [Run.along_step_iff, and_iff_right hstart, ← Run.along_and]
  refine Run.along_congr_of_kept Accounted ?_ ?_ hstart
  · intro w move hw
    exact clear_iff hw move
  · intro w move _ hstep
    exact hstep.1

/-- A task with two torrents. -/
def twoTorrents : BrushTask :=
  { records := [⟨of "first", of "u1", of "a", .blank⟩, ⟨of "second", of "u2", of "b", .blank⟩] }

/-- A round that matches both, on a day that allows one deletion. -/
def oneADay : BrushRound :=
  { reported := some [⟨of "a", true, 5, 3⟩, ⟨of "b", true, 7, 4⟩]
    needDelete := fun _ _ => true
    dailyDeleteLimit := of "1" }

/-- The second torrent is beyond the limit, and its record is that of a deleted one. -/
theorem second_tombstoned :
    ¬((∀ n, (([BrushMove.round oneADay].take n).foldl step (start twoTorrents)).Accounted) ∧
      Run.Along step KeepsCutOff (start twoTorrents) [.round oneADay]) ∧
    of "b" ∉ ((start twoTorrents).round oneADay).handed ∧
    of "b" ∈ ((start twoTorrents).round oneADay).tombstoned := by
  refine ⟨?_, by decide +kernel, by decide +kernel⟩
  rintro ⟨haccounted, -⟩
  have hone : ((start twoTorrents).round oneADay).Accounted := haccounted 1
  revert hone
  decide +kernel

end BrushWatch

end WolfNas
