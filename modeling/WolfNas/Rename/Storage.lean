import WolfNas.Lib.FileTree
import WolfNas.Lib.Path
import WolfNas.Lib.Program
import Mathlib.Data.List.Sort
import Mathlib.Data.Rat.Defs

/-!
# What a rename job works on

A rename job reads and writes the files of the storages, and the rows of the jobs, of their
items, of the transfer history and of the cached metadata.  Any of its calls may fail, before
or after it took effect.

## Main definitions

* `RenameItem`, `RenameRows` — the rows.
* `StorageHandle` — a storage, and how it resolves paths.
* `RenameWorld` — the storages and rows, with all states of the storages so far.
* `RenameEnv` — which calls fail, and what else the job does not decide itself.
* `RenameEnv.pathExists`, `RenameEnv.stat`, `RenameEnv.listDir`, `RenameEnv.mkdir`,
  `RenameEnv.move`, `RenameEnv.remove` — the calls of the storage backend.
* `RenameEnv.updateItem`, `RenameEnv.updateHistoryDest`, `RenameEnv.updateMetadataPath`,
  `RenameEnv.upsertMetadata` — those of the repository.
-/

namespace WolfNas

open Text

/-! ## Rows -/

/-- What a plan wants done with a file. -/
inductive ItemAction
  | rename | unchanged | skip | conflict | needsMetadata
  deriving DecidableEq, Repr

inductive ItemStatus
  | planned | running | done | failed | rolledBack | manualIntervention
  deriving DecidableEq, Repr

inductive JobStatus
  | planned | running | cancelling | cancelled | completed | interrupted | failed | rolledBack
  deriving DecidableEq, Repr

/-- What the plan knows of the file's media; all blank where it cannot be parsed. -/
structure RenameSnapshot where
  updateCategory : Bool := false
  targetCategory : Text := []
  category : Text := []
  isManual : Bool := false
  confidence : Text := []
  /-- The other fields, as one value. -/
  info : Text := []
  deriving DecidableEq, Repr

/-- An item of a job. -/
structure RenameItem where
  id : ℕ
  jobId : ℕ
  backendId : Text
  root : Text
  oldPath : Text
  newPath : Text := []
  oldSize : Option ℤ := none
  oldMtime : Option ℚ := none
  action : ItemAction := .rename
  status : ItemStatus := .planned
  auxMoves : List (Text × Text) := []
  snapshot : RenameSnapshot := {}
  error : Option Text := none
  rollbackStatus : Option Text := none
  deriving DecidableEq

/-- Where a record of the transfer history says its file is. -/
structure HistoryDest where
  destPath : Text
  destFilename : Text
  category : Text := []
  deriving DecidableEq, Repr

/-- A row of the metadata cache. -/
structure MediaMetadata where
  backendId : Text
  path : Text
  isManual : Bool := false
  confidence : Text := []
  fileSize : Option ℤ := none
  fileMtime : Option ℚ := none
  info : Text := []
  deriving DecidableEq

/-- The rows that a job reads and writes. -/
structure RenameRows where
  jobs : ℕ → Option JobStatus
  items : List RenameItem
  history : List HistoryDest := []
  metadata : List MediaMetadata := []

/-! ## Storages -/

/-- What is in a file of the library. -/
structure MovableFile where
  content : Text
  size : ℤ := 0
  mtime : ℚ := 0
  deriving DecidableEq

/-- The files of a storage. -/
abbrev MovableTree := FileTree Text MovableFile

/-- A storage backend: the storage it works on, how it resolves paths, and the path it gives an
entry of a directory. -/
structure StorageHandle (S : Type) where
  store : S
  place : Text → List Text
  childPath : Text → Text → Text

/-- The storages and the rows. -/
structure RenameWorld (S : Type) where
  trees : S → MovableTree
  rows : RenameRows
  /-- The number of calls so far. -/
  clock : ℕ := 0
  /-- Every state that the storages were in. -/
  passed : List (S → MovableTree) := [trees]

/-- How a call ends: well, or with an exception before or after it took effect. -/
inductive CallFault
  | none | before | after
  deriving DecidableEq, Repr

/-- What the job does not decide itself, by the number of calls so far. -/
structure RenameEnv (S : Type) where
  fault : ℕ → CallFault := fun _ => .none
  message : ℕ → Text := fun _ => []
  /-- The storage of a normalised backend id, where it is enabled and can be created. -/
  resolve : ℕ → Text → Option (StorageHandle S)
  lockFree : ℕ → Text → Bool := fun _ _ => true
  extended : ℕ → Bool := fun _ => true
  /-- The job is cancelled by another thread. -/
  cancels : ℕ → Bool := fun _ => false
  /-- The order in which a directory is listed. -/
  arrange : ℕ → List (Text × Bool) → List (Text × Bool) := fun _ l => l
  arrange_perm : ∀ n l, (arrange n l).Perm l
  /-- The size and time the system reports for a directory. -/
  dirStat : ℕ → ℤ × ℚ := fun _ => (0, 0)

/-- A part of a job. -/
abbrev Rename (S α : Type) := Program (RenameWorld S) Text α

/-! ## Paths -/

/-- `norm_path`. -/
def normPath (path : Text) : Text := Path.normpath (path.map fun c => if c = '\\' then '/' else c)

/-- `dirname`. -/
def dirnameOf (path : Text) : Text := Path.dirname (normPath path)

/-- `basename`. -/
def basenameOf (path : Text) : Text := Path.basename (normPath path)

/-- `normalize_backend`. -/
def normalizeBackend (backendId : Text) : Text :=
  let value := strip (if backendId = [] then of "local" else backendId)
  if lower value ∈ ["", "local", "none", "0"].map of then of "local" else value

/-- `target_dir_lock_key`. -/
def targetDirLockKey (backendId directory : Text) : Text :=
  of "library:target:dir:" ++ normalizeBackend backendId ++ ':' :: normPath directory

namespace RenameEnv

variable {S α : Type} [DecidableEq S] (env : RenameEnv S)

/-! ## Calls -/

omit [DecidableEq S] in
/-- One call, that may be refused or fail. -/
def call (f : ℕ → RenameWorld S → Option (α × RenameWorld S)) : Rename S α :=
  ⟨fun w =>
    let raised := .error (env.message w.clock)
    let w' := { w with clock := w.clock + 1 }
    match env.fault w.clock, f w.clock w' with
    | .before, _ => (raised, w')
    | _, none => (raised, w')
    | .none, some (a, w'') => (.ok a, w'')
    | .after, some (_, w'') => (raised, w'')⟩

/-- A call of a storage backend. -/
def storage (b : StorageHandle S) (f : ℕ → MovableTree → Option (α × MovableTree)) : Rename S α :=
  env.call fun n w => (f n (w.trees b.store)).map fun (a, t) =>
    let trees := Function.update w.trees b.store t
    (a, { w with trees := trees, passed := w.passed ++ [trees] })

omit [DecidableEq S] in
/-- A call of the repository. -/
def repo (f : RenameRows → Option (α × RenameRows)) : Rename S α :=
  env.call fun _ w => (f w.rows).map fun (a, rows) => (a, { w with rows := rows })

omit [DecidableEq S] in
/-- A question that only the environment answers. -/
def ask (f : ℕ → α) : Rename S α := env.call fun n w => some (f n, w)

/-! ## The storage backend -/

variable (b : StorageHandle S) (path : Text)

/-- `exists`. -/
def pathExists : Rename S Bool := env.storage b fun _ t => some (t.isThere (b.place path), t)

/-- `stat`: the size and time, where something is there. -/
def stat : Rename S (Option (ℤ × ℚ)) :=
  env.storage b fun n t =>
    let answer := match t.read (b.place path) with
      | some file => some (file.size, file.mtime)
      | none => if t.isDir (b.place path) then some (env.dirStat n) else none
    some (answer, t)

/-- `list(list_dir)`: the paths of the entries, and whether they are directories. -/
def listDir : Rename S (List (Text × Bool)) :=
  env.storage b fun n t => (t.list (b.place path)).map fun l =>
    ((env.arrange n l).map fun e => (b.childPath path e.1, e.2), t)

/-- `mkdir`, with parents. -/
def mkdir : Rename S Unit := env.storage b fun _ t => (t.mkdir (b.place path)).map ((), ·)

/-- `move`. -/
def move (dst : Text) : Rename S Unit :=
  env.storage b fun _ t => (t.move (b.place path) (b.place dst)).map ((), ·)

/-- `remove`. -/
def remove : Rename S Unit := env.storage b fun _ t => (t.remove (b.place path)).map ((), ·)

omit [DecidableEq S]

/-- `resolve_backend`. -/
def resolveBackend (backendId : Text) : Rename S (Option (StorageHandle S)) :=
  env.ask fun n => env.resolve n (normalizeBackend backendId)

/-- `acquire` of a lock. -/
def acquire (key : Text) : Rename S Bool := env.ask fun n => env.lockFree n key

/-- `extend` of the job's lock. -/
def extendLock : Rename S Bool := env.ask env.extended

/-! ## The repository -/

/-- `get_job`: the status of the job. -/
def getJob (jobId : ℕ) : Rename S (Option JobStatus) := env.repo fun r => some (r.jobs jobId, r)

/-- `update_job_status`. -/
def updateJobStatus (jobId : ℕ) (status : JobStatus) : Rename S Unit :=
  env.repo fun r =>
    some ((), { r with
      jobs := Function.update r.jobs jobId ((r.jobs jobId).map fun _ => status) })

/-- `refresh_job_counters`; the counters are read by nothing here. -/
def refreshJobCounters : Rename S Unit := env.repo fun r => some ((), r)

/-- `update_item`. -/
def updateItem (id : ℕ) (f : RenameItem → RenameItem) : Rename S Unit :=
  env.repo fun r =>
    some ((), { r with items := r.items.map fun x => if x.id = id then f x else x })

/-- `list_planned_items`. -/
def listPlannedItems (jobId : ℕ) : Rename S (List RenameItem) :=
  env.repo fun r =>
    some ((r.items.filter fun x => x.jobId = jobId ∧ x.status = .planned ∧
      x.action = .rename).insertionSort fun x y => x.id ≤ y.id, r)

/-- `list_all_items`. -/
def listAllItems (jobId : ℕ) : Rename S (List RenameItem) :=
  env.repo fun r =>
    some ((r.items.filter fun x => x.jobId = jobId).insertionSort fun x y => x.id ≤ y.id, r)

/-- `list_done_items`: those done and those failed, the last ones first. -/
def listDoneItems (jobId : ℕ) : Rename S (List RenameItem) :=
  env.repo fun r =>
    some ((r.items.filter fun x => x.jobId = jobId ∧ (x.status = .done ∨
      x.status = .failed)).insertionSort fun x y => y.id ≤ x.id, r)

/-- `update_history_dest_by_path`. -/
def updateHistoryDest (oldDir oldName newDir newName : Text) (category : Option Text) :
    Rename S Unit :=
  env.repo fun r =>
    some ((), { r with
      history := r.history.map fun x =>
        if x.destPath = oldDir ∧ x.destFilename = oldName then
          { destPath := newDir, destFilename := newName, category := category.getD x.category }
        else x })

/-- `update_metadata_path`, of the row of a path; refused where another row has the new path. -/
def updateMetadataPath (backendId oldPath newPath : Text) (size : Option ℤ) (mtime : Option ℚ) :
    Rename S Unit :=
  env.repo fun r =>
    let at' := fun (p : Text) (x : MediaMetadata) => x.backendId = backendId ∧ x.path = p
    if (r.metadata.any fun x => at' oldPath x) ∧ oldPath ≠ newPath ∧
        (r.metadata.any fun x => at' newPath x) then none
    else some ((), { r with
      metadata := r.metadata.map fun x =>
        if at' oldPath x then { x with path := newPath, fileSize := size, fileMtime := mtime }
        else x })

/-- `upsert_metadata`, not by a user: a row made by one stays, and so does one of high
confidence against one of less. -/
def upsertMetadata (data : MediaMetadata) : Rename S Unit :=
  env.repo fun r =>
    let same := fun x : MediaMetadata => x.backendId = data.backendId ∧ x.path = data.path
    some ((), { r with
      metadata := if r.metadata.any fun x => same x then
          r.metadata.map fun x =>
            if same x ∧ x.isManual = false ∧ ¬(x.confidence = of "high" ∧
              data.confidence ≠ of "high") then data
            else x
        else r.metadata ++ [data] })

end RenameEnv

end WolfNas
