import WolfNas.Rename.Storage
import WolfNas.Transfer.Library

/-!
# Renaming in the library

A job goes through its planned items: each main file is moved, and the files that belong to it
after it; an exception on the way moves them back.  Afterwards what else lies in a directory
follows its files, and a directory left empty is removed.  A rollback takes the done items
back, the last one first.

## Main definitions

* `auxTarget` — the name that an auxiliary file gets, where it belongs to the main file.
* `RenameEnv.executeItem`, `RenameEnv.moveAux` — one item.
* `RenameEnv.finishDirectoryAssets` — what else lies in the directories.
* `RenameEnv.runJob`, `RenameEnv.rollbackJob`, `cancelJob` — the calls on a job.
-/

namespace WolfNas

open Text

/-! ## Auxiliary files -/

/-- `_SUBTITLE_EXTS`. -/
def subtitleExts : List Text :=
  [".srt", ".ass", ".ssa", ".vtt", ".sup", ".sub", ".idx"].map of

/-- `_AUDIO_EXTS`. -/
def audioExts : List Text := [of ".mka"]

/-- `_SHARED_NFO`. -/
def sharedNfo : List Text := ["movie.nfo", "tvshow.nfo", "season.nfo"].map of

/-- The name of a main file without its extension. -/
def baseOf (path : Text) : Text := (Path.splitext (basenameOf path)).1

/-- The name that the file at the path gets where the main file's name changes from `oldBase` to
`newBase`; none where it does not belong to the main file. -/
def auxTarget (oldBase newBase path : Text) : Option Text :=
  let name := basenameOf path
  let stem := (Path.splitext name).1
  let ext := lower (Path.splitext name).2
  if ext ∈ subtitleExts ∧ (stem = oldBase ∨ stem.startsWith (oldBase ++ ['.'])) then
    some (newBase ++ stem.drop oldBase.length ++ ext)
  else if ext ∈ audioExts ∧ stem = oldBase then some (newBase ++ ext)
  else if ext = of ".nfo" ∧ stem = oldBase ∧ lower name ∉ sharedNfo then
    some (newBase ++ of ".nfo")
  else none

/-- `_history_category`. -/
def historyCategory (item : RenameItem) (target : Bool) : Option Text :=
  if item.snapshot.updateCategory then
    some (if target then item.snapshot.targetCategory else item.snapshot.category)
  else none

/-- `cancel_job`. -/
def cancelJob (jobId : ℕ) (r : RenameRows) : Bool × RenameRows :=
  match r.jobs jobId with
  | some .planned => (true, { r with jobs := Function.update r.jobs jobId (some .cancelled) })
  | some .running => (true, { r with jobs := Function.update r.jobs jobId (some .cancelling) })
  | _ => (false, r)

namespace RenameEnv

variable {S : Type} [DecidableEq S] (env : RenameEnv S)

omit [DecidableEq S] in
/-- `_fail`. -/
def fail (id : ℕ) (reason : Text) : Rename S Unit :=
  env.updateItem id fun x => { x with status := .failed, error := some reason }

section Item

variable (b : StorageHandle S) (item : RenameItem) (oldPath newPath : Text)

/-- One entry of `_move_aux`. -/
def moveAuxEntry (moved : List (Text × Text)) (entry : Text × Bool) :
    Rename S (List (Text × Text)) :=
  match (if entry.2 then none else auxTarget (baseOf oldPath) (baseOf newPath) entry.1) with
  | none => pure moved
  | some name => do
    let target := Path.join (dirnameOf newPath) name
    let taken ← env.pathExists b target
    if taken then pure moved
    else do
      let r ← (do env.mkdir b (dirnameOf newPath); env.move b entry.1 target).attempt
      match r with
      | .ok _ => pure (moved ++ [(normPath entry.1, normPath target)])
      | .error _ => pure moved

/-- `_move_aux`. -/
def moveAux : Rename S (List (Text × Text)) := do
  let entries ← (env.listDir b (dirnameOf oldPath)).attempt
  match entries with
  | .error _ => pure []
  | .ok entries => entries.foldlM (env.moveAuxEntry b oldPath newPath) []

/-- A file is moved back; the result says whether that went well. -/
def moveBack (new old : Text) : Rename S Bool := do
  let r ← (do env.mkdir b (dirnameOf old); env.move b new old).attempt
  match r with
  | .ok _ => pure true
  | .error _ => pure false

/-- One auxiliary file in `_rollback_paths`. -/
def rollbackAux (ok : Bool) (aux : Text × Text) : Rename S Bool := do
  let newExists ← env.pathExists b aux.2
  let oldExists ← env.pathExists b aux.1
  if newExists then
    if oldExists then pure false
    else do
      let back ← env.moveBack b aux.2 aux.1
      pure (ok && back)
  else pure ok

/-- The main file in `_rollback_paths`. -/
def rollbackMain (ok : Bool) : Rename S Bool := do
  let newExists ← env.pathExists b newPath
  let oldExists ← env.pathExists b oldPath
  if newExists then
    if oldExists then pure false
    else do
      let back ← env.moveBack b newPath oldPath
      pure (ok && back)
  else pure (ok && oldExists)

/-- `_rollback_paths`. -/
def rollbackPaths (aux : List (Text × Text)) : Rename S Bool := do
  let ok ← aux.reverse.foldlM (env.rollbackAux b) true
  env.rollbackMain b oldPath newPath ok

/-- `_upsert_metadata`. -/
def upsertItemMetadata : Rename S Unit := do
  let stat ← env.stat b newPath
  env.upsertMetadata
    { backendId := normalizeBackend item.backendId
      path := newPath
      isManual := item.snapshot.isManual
      confidence := if item.snapshot.confidence = [] then of "medium" else item.snapshot.confidence
      fileSize := stat.map Prod.fst
      fileMtime := stat.map Prod.snd
      info := item.snapshot.info }

/-- `_execute_item`, up to the moved auxiliary files; none where the target exists by now. -/
def placeItem : Rename S (Option (List (Text × Text))) := do
  let taken ← env.pathExists b newPath
  if taken then do
    env.fail item.id (of "target_exists")
    pure none
  else do
    env.updateItem item.id fun x => { x with status := .running }
    env.mkdir b (dirnameOf newPath)
    env.move b oldPath newPath
    let aux ← env.moveAux b oldPath newPath
    pure (some aux)

/-- `_execute_item`, what it writes down after the moves. -/
def recordItem (aux : List (Text × Text)) : Rename S Unit := do
  env.updateHistoryDest (dirnameOf oldPath) (basenameOf oldPath) (dirnameOf newPath)
    (basenameOf newPath) (historyCategory item true)
  let stat ← env.stat b newPath
  env.updateMetadataPath (normalizeBackend item.backendId) oldPath newPath (stat.map Prod.fst)
    (stat.map Prod.snd)
  env.upsertItemMetadata b item newPath
  env.updateItem item.id fun x =>
    { x with status := .done, newPath := newPath, auxMoves := aux }

/-- `_execute_item`, what it does after an exception. -/
def recoverItem (aux : List (Text × Text)) (e : Text) : Rename S Unit := do
  let _ ← (env.updateHistoryDest (dirnameOf newPath) (basenameOf newPath) (dirnameOf oldPath)
    (basenameOf oldPath) (historyCategory item false)).attempt
  let _ ← (env.updateMetadataPath (normalizeBackend item.backendId) newPath oldPath none
    none).attempt
  let ok ← env.rollbackPaths b oldPath newPath aux
  env.updateItem item.id fun x =>
    { x with
      status := if ok then .failed else .manualIntervention
      error := some e
      rollbackStatus := some (if ok then of "done" else of "failed") }

/-- `_execute_item`, once the locks are held.  Only the moves that were handed back are known
to the handler. -/
def renameItem : Rename S Unit := do
  let r ← (env.placeItem b item oldPath newPath).attempt
  match r with
  | .error e => env.recoverItem b item oldPath newPath [] e
  | .ok none => pure ()
  | .ok (some aux) =>
    (env.recordItem b item oldPath newPath aux).handle (env.recoverItem b item oldPath newPath aux)

end Item

omit [DecidableEq S] in
/-- The locks are acquired one after another, until one is held by another. -/
def acquireAll : List Text → Rename S Bool
  | [] => pure true
  | key :: keys => do
    let free ← env.acquire key
    if free then acquireAll keys else pure false

/-- The keys of the locks of an item, in order and without repetition. -/
def lockKeys (item : RenameItem) (oldPath newPath : Text) : List Text :=
  let a := targetDirLockKey item.backendId (dirnameOf oldPath)
  let c := targetDirLockKey item.backendId (dirnameOf newPath)
  if a = c then [a] else if a < c then [a, c] else [c, a]

/-- The file is no longer what the plan saw. -/
def FileChanged (item : RenameItem) (size : ℤ) (mtime : ℚ) : Prop :=
  (∃ n ∈ item.oldSize, n ≠ size) ∨ ∃ t ∈ item.oldMtime, 2 < t - mtime ∨ 2 < mtime - t

instance (item : RenameItem) (size : ℤ) (mtime : ℚ) : Decidable (FileChanged item size mtime) := by
  unfold FileChanged
  infer_instance

/-- `_execute_item`, from the questions to the file on. -/
def checkItem (b : StorageHandle S) (item : RenameItem) (oldPath newPath : Text) :
    Rename S Unit := do
  let stat ← env.stat b oldPath
  match stat with
  | none => env.fail item.id (of "source_missing")
  | some (size, mtime) =>
    if FileChanged item size mtime then env.fail item.id (of "file_changed")
    else do
      let taken ← env.pathExists b newPath
      if taken then env.fail item.id (of "target_exists")
      else do
        let free ← env.acquireAll (lockKeys item oldPath newPath)
        if free then env.renameItem b item oldPath newPath
        else env.fail item.id (of "target_locked")

/-- `_execute_item`. -/
def executeItem (item : RenameItem) : Rename S Unit := do
  let oldPath := normPath item.oldPath
  let newPath := normPath item.newPath
  let root := normPath item.root
  let backend ← env.resolveBackend item.backendId
  match backend with
  | none => env.fail item.id (of "backend_unavailable")
  | some b =>
    if newPath = [] then env.fail item.id (of "missing_new_path")
    else if root = [] ∨ ¬Path.isPathInPath root oldPath ∨ ¬Path.isPathInPath root newPath then
      env.fail item.id (of "outside_library_root")
    else env.checkItem b item oldPath newPath

/-! ## Directories -/

/-- `_directory_groups`: the items to rename, by the directories they were in. -/
def directoryGroups (items : List RenameItem) : List (Text × List RenameItem) :=
  let renames := items.filter fun x => x.action = .rename ∧ x.newPath ≠ []
  (renames.map fun x => dirnameOf x.oldPath).eraseDups.map fun dir =>
    (dir, renames.filter fun x => dirnameOf x.oldPath = dir)

/-- One entry that is not a directory, in `_finish_directory_assets`. -/
def moveAsset (b : StorageHandle S) (newDir : Text) (moved : List (Text × Text))
    (entry : Text × Bool) : Rename S (List (Text × Text)) :=
  if entry.2 then pure moved
  else do
    let target := Path.join newDir (basenameOf entry.1)
    let taken ← env.pathExists b target
    if taken then pure moved
    else do
      let r ← (do env.mkdir b newDir; env.move b entry.1 target).attempt
      match r with
      | .ok _ => pure (moved ++ [(normPath entry.1, normPath target)])
      | .error _ => pure moved

/-- The directory is removed where nothing is in it. -/
def removeEmpty (b : StorageHandle S) (dir : Text) : Rename S Unit := do
  let entries ← env.listDir b dir
  if entries = [] then env.remove b dir else pure ()

/-- The entries of a directory follow its files. -/
def moveAssets (b : StorageHandle S) (first : RenameItem) (oldDir newDir : Text)
    (entries : List (Text × Bool)) : Rename S Unit := do
  let moved ← entries.foldlM (env.moveAsset b newDir) []
  if moved = [] then pure ()
  else env.updateItem first.id fun x => { x with auxMoves := first.auxMoves ++ moved }
  let _ ← (env.removeEmpty b oldDir).attempt
  pure ()

/-- One directory in `_finish_directory_assets`: all its items are done, and have one new
directory, and no media file is left in it. -/
def finishDirectory (oldDir : Text) (items : List RenameItem) : Rename S Unit :=
  match items, (items.map fun x => dirnameOf x.newPath).eraseDups with
  | first :: _, [newDir] =>
    if normPath oldDir = normPath newDir ∨ ∃ x ∈ items, x.status ≠ .done then pure ()
    else do
      let backend ← env.resolveBackend first.backendId
      match backend with
      | none => pure ()
      | some b => do
        let entries ← (env.listDir b oldDir).attempt
        match entries with
        | .error _ => pure ()
        | .ok entries =>
          if ∃ e ∈ entries, e.2 = false ∧
              lower (Path.splitext (basenameOf e.1)).2 ∈ mediaExt then pure ()
          else env.moveAssets b first oldDir newDir entries
  | _, _ => pure ()

/-- `_finish_directory_assets`. -/
def finishDirectoryAssets (groups : List (Text × List RenameItem)) : Rename S Unit :=
  groups.foldlM (fun _ g => env.finishDirectory g.1 g.2) ()

/-! ## Jobs -/

/-- The key of the lock of a job. -/
def jobLockKey (jobId : ℕ) : Text := of "library:rename:job:" ++ ofNat jobId

omit [DecidableEq S] in
/-- Another thread may cancel the job here. -/
def maybeCancelled (jobId : ℕ) : Rename S Unit :=
  ⟨fun w =>
    (.ok (), { w with
      rows := if env.cancels w.clock then (cancelJob jobId w.rows).2 else w.rows })⟩

/-- The items of a job, until it is cancelled or its lock is lost; the result says whether it
was lost. -/
def runItems (jobId : ℕ) : List RenameItem → Rename S Bool
  | [] => pure false
  | item :: items => do
    env.maybeCancelled jobId
    let status ← env.getJob jobId
    if status = some .cancelling ∨ status = some .cancelled then pure false
    else do
      env.executeItem item
      let kept ← env.extendLock
      if kept then runItems jobId items else pure true

omit [DecidableEq S] in
/-- `_refresh_media_server`, without what it tells the media server. -/
def refreshMediaServer (jobId : ℕ) : Rename S Unit := do
  let _ ← env.listAllItems jobId
  let _ ← env.getJob jobId
  pure ()

/-- `run_job`, while the job's lock is held. -/
def runBody (jobId : ℕ) : Rename S Unit := do
  env.updateJobStatus jobId .running
  let planned ← env.listPlannedItems jobId
  let lockLost ← env.runItems jobId planned
  if lockLost then pure ()
  else do
    let _ ← (do
      let items ← env.listAllItems jobId
      env.finishDirectoryAssets (directoryGroups items)).attempt
    pure ()
  env.refreshMediaServer jobId
  env.maybeCancelled jobId
  let status ← env.getJob jobId
  env.refreshJobCounters
  env.updateJobStatus jobId
    (if lockLost then .interrupted
    else if status = some .cancelling ∨ status = some .cancelled then .cancelled
    else .completed)

/-- `run_job`. -/
def runJob (jobId : ℕ) : Rename S Unit := do
  let status ← env.getJob jobId
  if status ≠ some .planned then pure ()
  else do
    let free ← env.acquire (jobLockKey jobId)
    if free then
      (env.runBody jobId).handle fun _ => do
        env.refreshJobCounters
        env.updateJobStatus jobId .failed
    else pure ()

/-- `_rollback_item`. -/
def rollbackItem (item : RenameItem) : Rename S Bool := do
  let oldPath := normPath item.oldPath
  let newPath := normPath item.newPath
  if newPath = [] then pure true
  else do
    let backend ← env.resolveBackend item.backendId
    match backend with
    | none => do
      env.updateItem item.id fun x =>
        { x with status := .manualIntervention, rollbackStatus := some (of "failed") }
      pure false
    | some b => do
      let ok ← env.rollbackPaths b oldPath newPath item.auxMoves
      if ok then do
        env.updateHistoryDest (dirnameOf newPath) (basenameOf newPath) (dirnameOf oldPath)
          (basenameOf oldPath) (historyCategory item false)
        env.updateMetadataPath (normalizeBackend item.backendId) newPath oldPath none none
        env.updateItem item.id fun x =>
          { x with status := .rolledBack, rollbackStatus := some (of "done") }
      else
        env.updateItem item.id fun x =>
          { x with status := .manualIntervention, rollbackStatus := some (of "failed") }
      pure ok

/-- What `rollback_job` answers. -/
inductive RollbackResult
  | refused (reason : Text)
  | done (rolledBack failed : ℕ)
  deriving DecidableEq, Repr

/-- One item in `rollback_job`, with the counts. -/
def rollbackEntry (counts : ℕ × ℕ) (item : RenameItem) : Rename S (ℕ × ℕ) :=
  if item.status ≠ .done then pure counts
  else do
    let ok ← env.rollbackItem item
    pure (if ok then (counts.1 + 1, counts.2) else (counts.1, counts.2 + 1))

/-- `rollback_job`. -/
def rollbackJob (jobId : ℕ) : Rename S RollbackResult := do
  let status ← env.getJob jobId
  match status with
  | none => pure (.refused (of "job_not_found"))
  | some status =>
    if status = .running then pure (.refused (of "job_running"))
    else do
      let free ← env.acquire (jobLockKey jobId)
      if free then do
        let items ← env.listDoneItems jobId
        let counts ← items.foldlM env.rollbackEntry (0, 0)
        env.updateJobStatus jobId .rolledBack
        env.refreshJobCounters
        env.refreshMediaServer jobId
        pure (.done counts.1 counts.2)
      else pure (.refused (of "job_locked"))

end RenameEnv

end WolfNas
