import WolfNas.Lib.Run
import WolfNas.Lib.Text

/-!
# Removing the torrents of a brush task

A brush task keeps a record of every torrent it has added.  A round of its removal asks the
downloader for these torrents, drops the records of those that are gone, hands the ones that
match a rule to the downloader for deletion, as far as the day's limit goes, and writes the
totals of the task.

## Main definitions

* `BrushRecord`, `BrushTask` — the records, and what else a task keeps.
* `BrushTorrent`, `BrushRound` — what the downloader answers, and a round's input.
* `BrushRound.matched` — the torrents that match a rule.
* `BrushTask.submitted`, `BrushTask.deleted` — those handed over, and those taken for deleted.
* `BrushTask.round` — `remove_task_torrents`.
-/

namespace WolfNas

open Text

/-- The column of a torrent's size: blank, its size, or what was up- and downloaded when it was
deleted. -/
inductive RecordedSize
  | blank
  | single (n : ℕ)
  | pair (uploaded downloaded : ℕ)
  deriving DecidableEq, Repr

/-- The record of a torrent; the download id of a deleted one is `0`. -/
structure BrushRecord where
  title : Text
  enclosure : Text
  downloadId : Text
  size : RecordedSize := .blank
  deriving DecidableEq, Repr

/-- What a task keeps. -/
structure BrushTask where
  records : List BrushRecord := []
  /-- `_daily_deletes`: a day, and the deletions of that day. -/
  dailyDeletes : Option (ℕ × ℕ) := none
  /-- The download ids of the events of deletion. -/
  deleteEvents : List Text := []
  uploadSize : ℕ := 0
  downloadSize : ℕ := 0
  removeCount : ℕ := 0
  deriving DecidableEq, Repr

/-- A torrent as the downloader answers it. -/
structure BrushTorrent where
  id : Text
  complete : Bool
  uploaded : ℕ
  downloaded : ℕ
  deriving DecidableEq, Repr

/-- The input of a round. -/
structure BrushRound where
  /-- The task is running, and its downloader is configured. -/
  ready : Bool := true
  /-- What the downloader has of the task's torrents; none where it cannot be reached. -/
  reported : Option (List BrushTorrent)
  /-- `check_remove_rule`, for a torrent that is downloading or not. -/
  needDelete : BrushTorrent → Bool → Bool
  /-- `daily_delete_limit`. -/
  dailyDeleteLimit : Text := []
  today : ℕ := 0
  /-- `delete_torrents` raises. -/
  deleteRaises : Bool := false
  /-- What the downloader has of the deleted torrents afterwards; none where it cannot be
  reached. -/
  remaining : Option (List Text) := some []

/-- The id that stands for a deleted torrent. -/
def tombstoneId : Text := of "0"

/-! ## What matches a rule -/

/-- The first torrent of every id. -/
def firstOfIds : List Text → List BrushTorrent → List BrushTorrent
  | _, [] => []
  | seen, t :: l =>
    if t.id ∈ seen then firstOfIds seen l else t :: firstOfIds (t.id :: seen) l

theorem firstOfIds_subset (seen : List Text) (l : List BrushTorrent) : firstOfIds seen l ⊆ l := by
  induction l generalizing seen with
  | nil => simp [firstOfIds]
  | cons t l ih =>
    rw [firstOfIds]
    split_ifs
    · exact List.subset_cons_of_subset t (ih seen)
    · exact List.cons_subset_cons t (ih _)

namespace BrushRound

variable (r : BrushRound)

/-- `_process_torrents`, for the completed torrents and then for the others: the torrents that
match a rule. -/
def matched (torrents : List BrushTorrent) : List BrushTorrent :=
  firstOfIds []
    (((torrents.filter fun t => t.complete).filter fun t => r.needDelete t false) ++
      ((torrents.filter fun t => !t.complete).filter fun t => r.needDelete t true))

/-- The ids of the torrents that match a rule. -/
def matchedIds (torrents : List BrushTorrent) : List Text := (r.matched torrents).map BrushTorrent.id

theorem mem_matched {torrents : List BrushTorrent} {t : BrushTorrent} (h : t ∈ r.matched torrents) :
    t ∈ torrents := by
  have hmem := firstOfIds_subset _ _ h
  simp only [List.mem_append, List.mem_filter] at hmem
  rcases hmem with ⟨⟨hmem, -⟩, -⟩ | ⟨⟨hmem, -⟩, -⟩
  · exact hmem
  · exact hmem

end BrushRound

namespace BrushTask

variable (s : BrushTask) (r : BrushRound)

/-! ## The records -/

/-- The ids of the torrents that are not deleted. -/
def liveIds : List Text :=
  (s.records.map BrushRecord.downloadId).filter fun id => id ≠ tombstoneId ∧ id ≠ []

/-- `insert_brushtask_torrent`. -/
def insert (x : BrushRecord) : BrushTask :=
  if s.records.any fun y =>
      y.title = x.title ∧ y.enclosure = x.enclosure ∧ y.downloadId ≠ tombstoneId then s
  else { s with records := s.records ++ [x] }

/-- `delete_brushtask_torrent`, for the torrents that the downloader does not have. -/
def dropAbsent (torrents : List BrushTorrent) : BrushTask :=
  { s with
    records := s.records.filter fun x =>
      x.downloadId ∉ s.liveIds ∨ x.downloadId ∈ torrents.map BrushTorrent.id }

/-- The ids of the torrents that the downloader does not have. -/
def absentIds (torrents : List BrushTorrent) : List Text :=
  s.liveIds.dedup.filter fun id => id ∉ torrents.map BrushTorrent.id

/-- `update_brushtask_torrent_state`, on one record. -/
def tombstone (done : List BrushTorrent) (x : BrushRecord) : BrushRecord :=
  match done.find? fun t => t.id = x.downloadId with
  | none => x
  | some t => { x with downloadId := tombstoneId, size := .pair t.uploaded t.downloaded }

/-! ## The totals -/

/-- What was up- and downloaded with a deleted torrent, by its record. -/
def removedSize (x : BrushRecord) : ℕ × ℕ :=
  if x.downloadId = tombstoneId then
    match x.size with
    | .blank => (0, 0)
    | .single n => (n, 0)
    | .pair uploaded downloaded => (uploaded, downloaded)
  else (0, 0)

/-- `add_brushtask_upload_count`. -/
def addUploadCount (torrents : List BrushTorrent) (removed : ℕ) : BrushTask :=
  { s with
    removeCount := s.removeCount + removed
    uploadSize := (torrents.map BrushTorrent.uploaded).sum +
      (s.records.map fun x => (removedSize x).1).sum
    downloadSize := (torrents.map BrushTorrent.downloaded).sum +
      (s.records.map fun x => (removedSize x).2).sum }

/-! ## The limit of a day -/

/-- The deletions of the day so far. -/
def deletedToday : ℕ :=
  match s.dailyDeletes with
  | some (day, count) => if day = r.today then count else 0
  | none => 0

/-- What is left of the day's limit; none where there is no limit. -/
def allowance : Option ℕ :=
  if isDigit r.dailyDeleteLimit ∧ 0 < toNat r.dailyDeleteLimit then
    some (toNat r.dailyDeleteLimit - s.deletedToday r)
  else none

/-- The ids that are handed over for deletion. -/
def submitted (torrents : List BrushTorrent) : List Text :=
  match s.allowance r with
  | none => r.matchedIds torrents
  | some left => (r.matchedIds torrents).take left

/-- `_apply_daily_delete_limit`, on the count of the day. -/
def countDeletes (torrents : List BrushTorrent) : BrushTask :=
  { s with
    dailyDeletes := match s.allowance r with
      | none => s.dailyDeletes
      | some _ => some (r.today, s.deletedToday r + (s.submitted r torrents).length) }

/-! ## The round -/

/-- The ids taken for those of failed deletions. -/
def failed (torrents : List BrushTorrent) : List Text :=
  r.remaining.getD (s.submitted r torrents)

/-- The torrents that are taken for deleted. -/
def deleted (torrents : List BrushTorrent) : List BrushTorrent :=
  (r.matched torrents).filter fun t => t.id ∉ s.failed r torrents

/-- What the round finds in the downloader, where it goes on. -/
def found : Option (List BrushTorrent) :=
  if r.ready ∧ s.liveIds ≠ [] then r.reported else none

/-- The round hands torrents over, and goes on afterwards. -/
def deletes (torrents : List BrushTorrent) : Bool :=
  r.matched torrents ≠ [] ∧ s.allowance r ≠ some 0 ∧ r.deleteRaises = false

/-- `remove_task_torrents`. -/
def round : BrushTask :=
  match s.found r with
  | none => s
  | some torrents =>
    let s' := { s with deleteEvents := s.deleteEvents ++ r.matchedIds torrents }.dropAbsent torrents
    let absent := (s.absentIds torrents).length
    if r.matched torrents = [] then s'.addUploadCount torrents absent
    else if s.deletes r torrents then
      let removed := ((s.submitted r torrents).filter fun id => id ∉ s.failed r torrents).length
      { s'.countDeletes r torrents with
        records := s'.records.map (tombstone (s.deleted r torrents)) }.addUploadCount torrents
          (removed + absent)
    else s'.countDeletes r torrents

end BrushTask

end WolfNas
