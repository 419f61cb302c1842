import Mathlib.Data.List.Sort
import WolfNas.Lib.Path
import WolfNas.Lib.Table

/-!
# The retention service

The transfer history remembers for every transferred file where it came from, where it lies in
the library, which work and episode it is, and what is to become of it.

A sweep first looks for records whose source is gone and deletes the library file of those
that are to follow their source; then it deletes the library files of the records that are to
be replaced and for which there is a newer record.  `replace_older_versions` does the second
for one new record.  Both remember every deletion, with the records and files before it.

## Main definitions

* `TransferRecord`, `History` — `TRANSFERHISTORY` and its table, as far as retention reads it.
* `RetentionPolicy`, `RetentionPolicy.normalize` — the policies.
* `getSameEpisodeRecords`, `getRecordsForRetention`, `getReplaceCandidates` — the queries of
  `TransferRepository`.
* `RetentionEnv`, `Library` — what retention depends on, and what it works on.
* `RetentionEnv.dest` — the library file of a record.
* `RetentionEnv.deleteDest` — `RetentionService._delete_dest`.
* `RetentionEnv.applySourceMissing`, `RetentionEnv.replaceOlderVersions`,
  `RetentionEnv.sweep` — the entry points.
-/

namespace WolfNas

open Text

/-- The columns of `TRANSFERHISTORY` that the verified code reads. -/
structure TransferRecord where
  id : ℕ
  mediaType : Text := []
  category : Text := []
  title : Text := []
  year : Text := []
  tmdbId : ℕ := 0
  seasonEpisode : Text := []
  sourcePath : Text := []
  sourceFilename : Text := []
  dest : Text := []
  destPath : Text := []
  destFilename : Text := []
  dstBackend : Option Text := none
  identityId : Option Text := none
  anchorProvider : Option Text := none
  anchorExternalId : Option Text := none
  date : ℕ := 0
  sourceState : Option Text := none
  destState : Option Text := none
  retentionPolicy : Option Text := none
  deriving DecidableEq, Repr

/-- The table of transfer records. -/
abbrev History := Table TransferRecord.id

/-- What is to become of the library file of a record. -/
inductive RetentionPolicy
  | keep
  | syncDelete
  | replace
  deriving DecidableEq, Repr

/-- The text of a policy. -/
def RetentionPolicy.text : RetentionPolicy → Text
  | keep => of "keep"
  | syncDelete => of "sync_delete"
  | replace => of "replace"

/-- `RetentionPolicy.normalize`: anything unknown is kept. -/
def RetentionPolicy.normalize (value : Option Text) : RetentionPolicy :=
  let text := (value.getD []).strip.lower
  if text = syncDelete.text then syncDelete
  else if text = replace.text then replace
  else keep

namespace TransferRecord

variable (r : TransferRecord)

/-- `get_policy`. -/
def policy : RetentionPolicy := RetentionPolicy.normalize r.retentionPolicy

/-- The work of a record; blank where it is not indexed. -/
def identity : Text := r.identityId.getD []

/-- The work and the episode of a record. -/
def episodeKey : Text × Text := (r.identity, r.seasonEpisode)

end TransferRecord

/-! ## The queries -/

/-- `get_same_episode_records`. -/
def getSameEpisodeRecords (history : History) (record : TransferRecord) : List TransferRecord :=
  let rows :=
    if record.identity ≠ [] then
      history.rows.filter fun r => r.destPath ≠ [] ∧ r.identityId = some record.identity
    else if record.tmdbId ≠ 0 then
      history.rows.filter fun r => r.destPath ≠ [] ∧ r.tmdbId = record.tmdbId
    else []
  rows.filter fun r =>
    r.destFilename ≠ [] ∧
      (record.seasonEpisode = [] ∨ r.seasonEpisode = record.seasonEpisode)

/-- `get_records_for_retention`: the newest records first. -/
def getRecordsForRetention (history : History) (limit : ℕ) : List TransferRecord :=
  let rows := history.rows.filter fun r => r.sourcePath ≠ [] ∧ r.destFilename ≠ []
  (rows.insertionSort fun a b => b.id ≤ a.id).take (max 1 limit)

/-- The newest record of a work and episode; zero where there is none. -/
def latest (newer : List TransferRecord) (key : Text × Text) : ℕ :=
  ((newer.filter fun r => r.episodeKey = key).map TransferRecord.id).foldl max 0

/-- `get_replace_candidates`: the records to be replaced for which there is a newer one. -/
def getReplaceCandidates (history : History) : List TransferRecord :=
  let olds := history.rows.filter fun r =>
    r.retentionPolicy = some RetentionPolicy.replace.text ∧ r.destFilename ≠ []
  let newer := history.rows.filter fun r => r.destFilename ≠ [] ∧ r.identityId.isSome
  olds.filter fun r => r.id < latest newer r.episodeKey

/-! ## The sweep -/

/-- A file on a backend; the local one has number zero. -/
abbrev LibraryFile := ℕ × Text

/-- The file, or what lies below it where it is a directory. -/
def covers (file f : LibraryFile) : Bool :=
  file.1 == f.1 && (file.2 == f.2 || (file.2 ++ ['/']).isPrefixOf f.2)

/-- What retention depends on besides the records. -/
structure RetentionEnv where
  /-- `os.path.exists` of a source. -/
  sourceThere : Text → Bool
  /-- The backend of an id other than `local`; none where it cannot be resolved. -/
  backendOf : Text → Option ℕ
  /-- Removing the file fails. -/
  removeFails : LibraryFile → Bool
  /-- Marking the source, or the destination, of a record fails. -/
  markFails : ℕ → Bool
  /-- Removing a record fails. -/
  dropFails : ℕ → Bool

/-- The records, and the files in the library. -/
structure Library where
  history : History
  files : List LibraryFile

/-- A file that was deleted, with the library before that. -/
structure Deletion where
  before : Library
  file : LibraryFile

/-- How far a call has come. -/
structure RetentionRun where
  library : Library
  deletions : List Deletion := []
  marked : ℕ := 0
  deleted : ℕ := 0
  failed : ℕ := 0
  replaced : ℕ := 0

/-- `PathUtils.join_path` of two parts. -/
def joinPath (base part : Text) : Text :=
  let drive := match base with
    | c :: ':' :: d :: _ => c.isAlpha && (d == '/' || d == '\\')
    | _ => false
  let sep := if drive || base.startsWith (of "\\\\") then '\\' else '/'
  if base.isEmpty || part.isEmpty then base
  else
    let stem := if base.getLast? == some '/' || base.getLast? == some '\\' then base
      else base ++ [sep]
    stem ++ part.dropWhile fun c => c == '/' || c == '\\'

/-- `_source_exists`. -/
def RetentionEnv.sourceExists (env : RetentionEnv) (r : TransferRecord) : Bool :=
  let path := joinPath r.sourcePath r.sourceFilename
  !path.isEmpty && env.sourceThere path

namespace RetentionEnv

variable (env : RetentionEnv)

/-! ## Deleting one file -/

/-- `resolve_backend_by_id`. -/
def resolveBackend (backendId : Text) : Option ℕ :=
  if backendId = [] ∨ backendId = of "local" then some 0 else env.backendOf backendId

/-- The file that `delete_media_file` is to remove; none where it refuses the path or finds
no backend. -/
def mediaFile (filedir filename backendId : Text) : Option LibraryFile :=
  let file := Path.rstripSlash (Path.join filedir filename)
  let dir := Path.dirname file
  if Path.basename file = [] ∨ dir = [] ∨ dir = of "/" ∨ dir = of "\\" ∨ file = dir then none
  else (env.resolveBackend backendId).map (·, file)

/-- The library file of a record. -/
def dest (r : TransferRecord) : Option LibraryFile :=
  if r.destPath = [] ∨ r.destFilename = [] then none
  else
    let backendId := r.dstBackend.getD []
    env.mediaFile r.destPath r.destFilename (if backendId = [] then of "local" else backendId)

/-- `_mark_dest_deleted`. -/
def markDestDeleted (history : History) (id : ℕ) : History :=
  if env.markFails id then history
  else history.update id (fun r => { r with destState := some (of "deleted") }) fun _ => rfl

/-- `_delete_dest`: whether the file is gone; a file that is not there counts as gone.  A
directory is removed with everything below it. -/
def deleteDest (run : RetentionRun) (r : TransferRecord) : Bool × RetentionRun :=
  match env.dest r with
  | none => (false, run)
  | some file =>
    let removed := run.library.files.filter (covers file)
    if removed ≠ [] ∧ env.removeFails file then (false, run)
    else
      (true, { run with
        library :=
          { history := env.markDestDeleted run.library.history r.id
            files := run.library.files.filter fun f => !covers file f }
        deletions := run.deletions ++ removed.map (⟨run.library, ·⟩) })

/-! ## The source is missing -/

/-- The source of the record is missing, and was not known to be. -/
def newlyMissing (r : TransferRecord) : Bool :=
  !env.sourceExists r && r.sourceState.getD [] != of "missing"

/-- The source of the record is marked as missing. -/
def markMissing (run : RetentionRun) (r : TransferRecord) : RetentionRun :=
  { run with
    library.history := run.library.history.update r.id
      (fun r => { r with sourceState := some (of "missing") }) fun _ => rfl
    marked := run.marked + 1 }

/-- The body of the loop of `apply_source_missing`. -/
def missingStep (run : RetentionRun) (r : TransferRecord) : RetentionRun :=
  if !env.newlyMissing r || env.markFails r.id then run
  else
    let run := markMissing run r
    if r.policy ≠ .syncDelete then run
    else
      let (gone, run) := env.deleteDest run r
      if gone then { run with deleted := run.deleted + 1 }
      else { run with failed := run.failed + 1 }

/-- `apply_source_missing`. -/
def applySourceMissing (run : RetentionRun) (records : List TransferRecord) : RetentionRun :=
  records.foldl env.missingStep run

/-! ## Replacing versions -/

/-- The body of the loops of `_replace_superseded` and `replace_older_versions`. -/
def replaceStep (run : RetentionRun) (old : TransferRecord) : RetentionRun :=
  let (gone, run) := env.deleteDest run old
  if !gone || env.dropFails old.id then run
  else { run with
    library.history := run.library.history.drop old.id
    replaced := run.replaced + 1 }

/-- The records that a new record replaces. -/
def olderVersions (history : History) (new : TransferRecord) : List TransferRecord :=
  (getSameEpisodeRecords history new).filter fun old => old.id ≠ new.id ∧ old.policy = .replace

/-- `replace_older_versions`. -/
def replaceOlderVersions (library : Library) (new : TransferRecord) : RetentionRun :=
  (olderVersions library.history new).foldl env.replaceStep ⟨library, [], 0, 0, 0, 0⟩

/-- The sweep once missing sources are dealt with. -/
def sweepMissing (library : Library) (limit : ℕ) : RetentionRun :=
  env.applySourceMissing ⟨library, [], 0, 0, 0, 0⟩ (getRecordsForRetention library.history limit)

/-- `RetentionSweep.sweep`. -/
def sweep (library : Library) (limit : ℕ) : RetentionRun :=
  let run := env.sweepMissing library limit
  (getReplaceCandidates run.library.history).foldl env.replaceStep run

end RetentionEnv

end WolfNas
