import WolfNas.Lib.Url
import WolfNas.Retention.Sweep

/-!
# The marks of transferred files

A file that was transferred is marked in two tables, and is passed over as long as a mark is there:
for it or for a directory that holds it.  Marks are written under normalised paths.  With a record
of the history its marks are removed: the one under its directory and file name, joined as they are
stored, and in the table of synchronised paths those of its directory and of everything that
matches the directory as a pattern, in which `_` and `%` stand for other characters.

## Main definitions

* `SyncMark`, `MarkTables` — the tables, with the functions of the repository on them.
* `MarkTables.deleteRecords` — `delete_records`.
* `MarkTables.Forgotten`, `MarkTables.Untouched` — no mark stops the files of the records, and the
  marks elsewhere are as they were.
* `MarkTables.Spelled` — the marks in the tables are spelled as they are looked for.

## Main results

* `MarkTables.blacklist_clear`, `MarkTables.syncHistory_clear` — what is left of the tables.
* `MarkTables.deleteRecords_iff` — for every set of records and marks.
-/

namespace WolfNas

open Text

/-- A row of `SYNCHISTORY`. -/
structure SyncMark where
  path : Text
  src : Text
  dest : Text
  deriving DecidableEq, Repr

/-- The records of the history, and the two tables of marks. -/
structure MarkTables where
  history : History
  blacklist : List Text
  syncHistory : List SyncMark

namespace MarkTables

variable (s : MarkTables)

/-! ## The tables -/

/-- `is_transfer_in_blacklist`. -/
def isTransferInBlacklist (path : Text) : Bool :=
  path ≠ [] && s.blacklist.any (· = Path.normpath path)

/-- `insert_transfer_blacklist`. -/
def insertTransferBlacklist (path : Text) : MarkTables :=
  if path = [] ∨ s.isTransferInBlacklist path then s
  else { s with blacklist := s.blacklist ++ [Path.normpath path] }

/-- `delete_transfer_blacklist`. -/
def deleteTransferBlacklist (path : Text) : MarkTables :=
  { s with
    blacklist := s.blacklist.filter (· ≠ path)
    syncHistory := s.syncHistory.filter (·.path ≠ path) }

/-- `is_sync_in_history`. -/
def isSyncInHistory (path dest : Text) : Bool :=
  path ≠ [] && s.syncHistory.any fun m =>
    m.path = Path.normpath path && m.dest = Path.normpath dest

/-- `insert_sync_history`. -/
def insertSyncHistory (path src dest : Text) : MarkTables :=
  if path = [] ∨ dest = [] ∨ s.isSyncInHistory path dest then s
  else
    { s with
      syncHistory := s.syncHistory ++
        [⟨Path.normpath path, Path.normpath src, Path.normpath dest⟩] }

/-- The pattern for what is below a directory. -/
def below (normalized : Text) : Text := Path.rstripSlash normalized ++ of "/%"

/-- `delete_sync_history_for_source`. -/
def deleteSyncHistoryForSource (sourcePath : Text) : MarkTables :=
  let text := sourcePath.strip
  if text = [] then s
  else
    let normalized := Path.normpath text
    { s with
      syncHistory := (s.syncHistory.filter (·.path ≠ normalized)).filter fun m =>
        !like (below normalized) m.path }

/-- `delete_transfer_logs`. -/
def deleteTransferLogs (logids : List ℕ) : MarkTables :=
  { s with history := logids.foldl Table.drop s.history }

/-- `_load_records`. -/
def loadRecords (logids : List ℕ) : List TransferRecord :=
  logids.filterMap fun logid => s.history.rows.find? (·.id = logid)

/-- The directory of a record and its file name, joined. -/
def joined (r : TransferRecord) : Text := joinPath r.sourcePath r.sourceFilename

/-- The marks of one record are removed. -/
def clear (r : TransferRecord) : MarkTables :=
  (s.deleteTransferBlacklist (joined r)).deleteSyncHistoryForSource r.sourcePath

/-- `delete_records`, with the status and the message of each record. -/
def deleteRecords (logids : List ℕ) : MarkTables × List (ℕ × Text × Text) :=
  let records := s.loadRecords logids
  let found := records.map (·.id)
  (records.foldl clear (s.deleteTransferLogs found), logids.map fun logid =>
    (logid, if logid ∈ found then of "deleted" else of "skipped",
      if logid ∈ found then [] else of "记录不存在"))

/-! ## Which files are passed over -/

/-- The file of a record. -/
def sourceFile (r : TransferRecord) : Text := Path.join r.sourcePath r.sourceFilename

/-- No file of the records is passed over: neither under its own path, nor under that of a
directory that holds it, nor for any destination. -/
def Forgotten (records : List TransferRecord) : Prop :=
  ∀ r ∈ records, ∀ path, path ≠ [] → Path.Covers path (sourceFile r) →
    s.isTransferInBlacklist path = false ∧ ∀ dest, s.isSyncInHistory path dest = false

/-- A path is outside the source directories of the records. -/
def Outside (records : List TransferRecord) (path : Text) : Prop :=
  ∀ r ∈ records, ¬Path.Covers r.sourcePath path

instance (records : List TransferRecord) (path : Text) : Decidable (Outside records path) :=
  inferInstanceAs (Decidable (∀ r ∈ records, _))

/-- The marks outside the source directories are as they were. -/
structure Untouched (s' : MarkTables) (records : List TransferRecord) : Prop where
  blacklist : s'.blacklist.filter (Outside records ·) = s.blacklist.filter (Outside records ·)
  syncHistory : s'.syncHistory.filter (Outside records ·.path) =
    s.syncHistory.filter (Outside records ·.path)

/-- A synchronisation mark that is removed with a record. -/
def Sweeps (r : TransferRecord) (path : Text) : Prop :=
  path = joined r ∨ r.sourcePath.strip ≠ [] ∧ (path = Path.normpath r.sourcePath.strip ∨
    like (below (Path.normpath r.sourcePath.strip)) path = true)

instance (r : TransferRecord) (path : Text) : Decidable (Sweeps r path) :=
  inferInstanceAs (Decidable (_ ∨ _))

/-- The marks are spelled as they are looked for when the records are deleted. -/
structure Spelled (records : List TransferRecord) : Prop where
  /-- A black-list mark of a file, or of a directory that holds it, is a directory and a file name
  as a record has them. -/
  blacklist : ∀ r ∈ records, ∀ m ∈ s.blacklist, Path.normpath m = m →
    Path.Covers m (sourceFile r) → ∃ r' ∈ records, m = joined r'
  /-- A synchronisation mark is, or it matches the directory of a record. -/
  syncHistory : ∀ r ∈ records, ∀ m ∈ s.syncHistory, Path.normpath m.path = m.path →
    Path.normpath m.dest = m.dest → Path.Covers m.path (sourceFile r) →
      ∃ r' ∈ records, Sweeps r' m.path
  /-- Nothing outside the source directories does. -/
  others : (∀ m ∈ s.blacklist, Outside records m → ∀ r ∈ records, m ≠ joined r) ∧
    ∀ m ∈ s.syncHistory, Outside records m.path → ∀ r ∈ records, ¬Sweeps r m.path

variable {s} {records : List TransferRecord} {r : TransferRecord} {path dest : Text}

/-! ## Looking up what was written -/

theorem isTransferInBlacklist_iff :
    s.isTransferInBlacklist path = true ↔ path ≠ [] ∧ Path.normpath path ∈ s.blacklist := by
  simp [isTransferInBlacklist]

theorem isSyncInHistory_iff : s.isSyncInHistory path dest = true ↔
    path ≠ [] ∧ ∃ m ∈ s.syncHistory, m.path = Path.normpath path ∧ m.dest = Path.normpath dest := by
  simp [isSyncInHistory]

/-! ## What is left -/

theorem blacklist_clear : (s.clear r).blacklist = s.blacklist.filter (· ≠ joined r) := by
  rw [clear, deleteSyncHistoryForSource]
  dsimp only
  split_ifs <;> rfl

theorem syncHistory_clear :
    (s.clear r).syncHistory = s.syncHistory.filter fun m => ¬Sweeps r m.path := by
  rw [clear, deleteSyncHistoryForSource]
  dsimp only
  split_ifs with hblank
  · refine List.filter_congr fun m _ => ?_
    simp [Sweeps, hblank]
  · rw [deleteTransferBlacklist, List.filter_filter, List.filter_filter]
    refine List.filter_congr fun m _ => ?_
    rw [Bool.eq_iff_iff]
    simp [Sweeps, hblank, and_comm, and_assoc]

theorem blacklist_foldl : (records.foldl clear s).blacklist =
    s.blacklist.filter fun m => ∀ r ∈ records, m ≠ joined r := by
  induction records generalizing s with
  | nil => simp
  | cons r records ih =>
    rw [List.foldl_cons, ih, blacklist_clear, List.filter_filter]
    refine List.filter_congr fun m _ => ?_
    simp [Bool.and_comm]

theorem syncHistory_foldl : (records.foldl clear s).syncHistory =
    s.syncHistory.filter fun m => ∀ r ∈ records, ¬Sweeps r m.path := by
  induction records generalizing s with
  | nil => simp
  | cons r records ih =>
    rw [List.foldl_cons, ih, syncHistory_clear, List.filter_filter]
    refine List.filter_congr fun m _ => ?_
    simp [Bool.and_comm]

/-! ## Every set of records and marks -/

private theorem filter_filter_eq_iff {α : Type} {l : List α} {p o : α → Bool} :
    (l.filter p).filter o = l.filter o ↔ ∀ x ∈ l, o x = true → p x = true := by
  rw [List.filter_filter]
  constructor
  · intro h x hx ho
    have hmem : x ∈ l.filter fun y => o y && p y := h ▸ List.mem_filter.mpr ⟨hx, ho⟩
    exact (Bool.and_eq_true _ _ ▸ (List.mem_filter.mp hmem).2).2
  · intro h
    refine List.filter_congr fun x hx => ?_
    cases ho : o x with
    | false => rfl
    | true => rw [h x hx ho, Bool.and_true]

/-- **After records are deleted, their files are no longer passed over, and the marks elsewhere are
as they were**, exactly where the marks are spelled as they are looked for. -/
theorem deleteRecords_iff (s : MarkTables) (logids : List ℕ) :
    (s.deleteRecords logids).1.Forgotten (s.loadRecords logids) ∧
        s.Untouched (s.deleteRecords logids).1 (s.loadRecords logids) ↔
      s.Spelled (s.loadRecords logids) := by
  set records := s.loadRecords logids
  have hblack : (s.deleteRecords logids).1.blacklist =
      s.blacklist.filter fun m => ∀ r ∈ records, m ≠ joined r := blacklist_foldl
  have hsync : (s.deleteRecords logids).1.syncHistory =
      s.syncHistory.filter fun m => ∀ r ∈ records, ¬Sweeps r m.path := syncHistory_foldl
  set s' := (s.deleteRecords logids).1
  have hothers : s.Untouched s' records ↔
      (∀ m ∈ s.blacklist, Outside records m → ∀ r ∈ records, m ≠ joined r) ∧
        ∀ m ∈ s.syncHistory, Outside records m.path → ∀ r ∈ records, ¬Sweeps r m.path := by
    have hsplit : s.Untouched s' records ↔
        s'.blacklist.filter (Outside records ·) = s.blacklist.filter (Outside records ·) ∧
          s'.syncHistory.filter (Outside records ·.path) =
            s.syncHistory.filter (Outside records ·.path) :=
      ⟨fun h => ⟨h.blacklist, h.syncHistory⟩, fun h => ⟨h.1, h.2⟩⟩
    rw [hsplit, hblack, hsync, filter_filter_eq_iff, filter_filter_eq_iff]
    simp only [decide_eq_true_eq]
  constructor
  · intro ⟨hforgotten, huntouched⟩
    refine ⟨?_, ?_, hothers.mp huntouched⟩
    · intro r hr m hm hnormal hcovers
      by_contra hnone
      have hne : m ≠ [] := hnormal ▸ Path.normpath_ne_nil m
      have hfalse := (hforgotten r hr m hne hcovers).1
      have hmem : m ∈ s'.blacklist := by
        rw [hblack]
        exact List.mem_filter.mpr ⟨hm, decide_eq_true fun r' hr' h => hnone ⟨r', hr', h⟩⟩
      rw [isTransferInBlacklist_iff.mpr ⟨hne, hnormal.symm ▸ hmem⟩] at hfalse
      cases hfalse
    · intro r hr m hm hnormal hdest hcovers
      by_contra hnone
      have hne : m.path ≠ [] := hnormal ▸ Path.normpath_ne_nil m.path
      have hfalse := (hforgotten r hr m.path hne hcovers).2 m.dest
      have hmem : m ∈ s'.syncHistory := by
        rw [hsync]
        exact List.mem_filter.mpr ⟨hm, decide_eq_true fun r' hr' h => hnone ⟨r', hr', h⟩⟩
      rw [isSyncInHistory_iff.mpr ⟨hne, m, hmem, hnormal.symm, hdest.symm⟩] at hfalse
      cases hfalse
  · intro h
    refine ⟨?_, hothers.mpr h.others⟩
    intro r hr path hne hcovers
    have hcovers' : Path.Covers (Path.normpath path) (sourceFile r) :=
      Path.covers_normpath.mpr hcovers
    have hnormal := Path.normpath_normpath path
    constructor
    · by_contra hin
      obtain ⟨-, hmem⟩ := isTransferInBlacklist_iff.mp (Bool.eq_true_of_not_eq_false hin)
      rw [hblack] at hmem
      obtain ⟨hm, hkept⟩ := List.mem_filter.mp hmem
      obtain ⟨r', hr', heq⟩ := h.blacklist r hr _ hm hnormal hcovers'
      exact of_decide_eq_true hkept r' hr' heq
    · intro dest
      by_contra hin
      obtain ⟨-, m, hmem, hpath, hdest⟩ :=
        isSyncInHistory_iff.mp (Bool.eq_true_of_not_eq_false hin)
      rw [hsync] at hmem
      obtain ⟨hm, hkept⟩ := List.mem_filter.mp hmem
      rw [← hpath] at hnormal hcovers'
      have hdest' : Path.normpath m.dest = m.dest := by rw [hdest, Path.normpath_normpath]
      obtain ⟨r', hr', hsweeps⟩ := h.syncHistory r hr m hm hnormal hdest' hcovers'
      exact of_decide_eq_true hkept r' hr' hsweeps

/-- A season of a show whose directory has an underscore in its name, with marks of the show's
directory and of another show. -/
def underscored : MarkTables where
  history := ⟨[{ id := 1, sourcePath := of "/dl/A_1/S1", sourceFilename := of "E1.mkv" }], by simp⟩
  blacklist := [of "/dl/A_1/S1/E1.mkv"]
  syncHistory := [⟨of "/dl/A_1", of "/dl", of "/lib"⟩, ⟨of "/dl/AB1/S1/E9.mkv", of "/dl", of "/lib"⟩]

/-- The mark of the show's directory stays and stops the season; the other show's mark is gone. -/
theorem mark_above_stays :
    ¬((underscored.deleteRecords [1]).1.Forgotten (underscored.loadRecords [1]) ∧
        underscored.Untouched (underscored.deleteRecords [1]).1 (underscored.loadRecords [1])) ∧
      Path.Covers (of "/dl/A_1") (of "/dl/A_1/S1/E1.mkv") ∧
      (underscored.deleteRecords [1]).1.isSyncInHistory (of "/dl/A_1") (of "/lib") = true ∧
      underscored.isSyncInHistory (of "/dl/AB1/S1/E9.mkv") (of "/lib") = true ∧
      (underscored.deleteRecords [1]).1.isSyncInHistory (of "/dl/AB1/S1/E9.mkv") (of "/lib") =
        false := by
  refine ⟨fun h => ?_, by decide +kernel, by decide +kernel, by decide +kernel, by decide +kernel⟩
  have hstays : (underscored.deleteRecords [1]).1.isSyncInHistory (of "/dl/A_1") (of "/lib") =
      true := by decide +kernel
  have hgone := (h.1 { id := 1, sourcePath := of "/dl/A_1/S1", sourceFilename := of "E1.mkv" }
    (by decide +kernel) (of "/dl/A_1") (by decide) (by decide +kernel)).2 (of "/lib")
  rw [hstays] at hgone
  cases hgone

end MarkTables

end WolfNas
