import WolfNas.Lib.FileFrame
import WolfNas.Transfer.Loop

/-!
# From the queue to the loop and back

A finished download comes from the queue with one or more paths.  The pipeline hands every
path to `transfer_media`, which looks for the media files, drops what is to be ignored,
identifies the rest and runs the loop over it.  The task has succeeded where every path has,
and a task that has succeeded with the operation `move` ends with the deletion of the torrent
together with its data.

## Main definitions

* `PipelineEnv`, `TransferTask` — what the pipeline depends on, and its tasks.
* `PipelineEnv.discover`, `PipelineEnv.checkIgnore` — the media files of a path.
* `PipelineEnv.transferMedia` — `transfer_media`.
* `PipelineEnv.process` — `TransferPipeline.process`.
* `PipelineEnv.handleTask` — `_handle_task` of the queue.
-/

namespace WolfNas

open FileStore Text

/-- A task of the transfer queue.  A path that is not given is empty. -/
structure TransferTask where
  /-- It comes from a downloader, and not from the synchronisation of a directory. -/
  downloader : Bool := true
  filePaths : List Text
  operation : Text
  targetDir : Text := []
  unknownDir : Text := []
  dstBackendId : Text := of "local"
  season : Option ℤ := none
  /-- The downloader has a client. -/
  client : Bool := true

/-- What the pipeline depends on besides the state of the library. -/
structure PipelineEnv extends LoopEnv where
  /-- The transfer lock of a path is not to be had. -/
  pathLocked : Text → Bool
  /-- A directory holds marks of an unfinished download. -/
  incomplete : Store → Loc → Bool
  /-- The size from which on a file is taken for a film. -/
  minFilesize : ℕ
  /-- A file name is that of a sample or trailer. -/
  obviousExtra : Text → Bool
  /-- The ignore words match a directory; never where they are no valid pattern. -/
  ignoredPath : Text → Bool
  /-- The ignore words match a file name; never where they are no valid pattern. -/
  ignoredFile : Text → Bool
  /-- The file was transferred before. -/
  blacklisted : Text → Bool
  /-- What the files of a path are identified as; a file may be missing. -/
  identify : LibraryState → TransferTask → Text → List Text →
    Except OsError (List (Text × Option MediaInfo))
  /-- Removing a directory fails. -/
  rmtreeFails : Text → Bool
  /-- What follows the transfer of a path fails. -/
  finishFails : Text → Bool
  /-- The backend with an id; none for local files. -/
  resolveBackend : Text → Except OsError (Option Backend)
  /-- The work of the task is in the library, as far as is known. -/
  libraryDone : TransferTask → Bool

/-- The extension of a path, in lower case. -/
def extOf (path : Text) : Text := lower (Path.splitext path).2

/-- The path is that of a media file. -/
def isMediaFile (path : Text) : Bool := extOf path ∈ mediaExt

/-- `is_invalid_path`: recycle bins, hidden directories and the like. -/
def isInvalidPath (path : Text) : Bool :=
  let slashed := path.map fun c => if c = '\\' then '/' else c
  let rooted := if slashed.head? = some '/' then slashed else '/' :: slashed
  let normalized := if Path.endsSlash rooted then rooted else rooted ++ ['/']
  path = [] ∨ of "/@Recycle/" <:+: normalized ∨ of "/#recycle/" <:+: normalized ∨
    of "/@eaDir/" <:+: normalized ∨ of "/@eaDir" <:+: Path.rstripSlash normalized ∨
    of "/." <:+: normalized

/-- The operation a task asks for. -/
def operationOf (operation : Text) : Operation :=
  if operation = of "copy" then .copy
  else if operation = of "move" then .move
  else if operation = of "link" then .link
  else if operation = of "softlink" then .softlink
  else .other

/-- `TransferTask.validate`. -/
def TransferTask.valid (task : TransferTask) : Bool :=
  task.filePaths ≠ [] ∧
    task.operation ∈ ["copy", "move", "link", "softlink", "rclone_copy", "rclone_move"].map of ∧
    ∀ n ∈ task.season, 0 ≤ n

/-- The file at a place, or all files below it. -/
def LookupEnv.filesAt (env : LookupEnv) (w : LibraryState) (l : Loc) : List Loc :=
  if w.files.isThere l then [l]
  else (env.below w.files l).map fun rel => (l.1, Path.join l.2 rel)

/-- `get_dir_files` of any path, without a bound on the size; no extensions stand for all. -/
def LookupEnv.dirFiles (env : LookupEnv) (w : LibraryState) (path : Text) (exts : List Text) :
    List Text :=
  ((env.filesAt w (localBackend.loc path)).map Prod.snd).filter fun file =>
    !isInvalidPath file && decide (exts = [] ∨ extOf file ∈ exts)

namespace PipelineEnv

variable (env : PipelineEnv) (w : LibraryState)

/-! ## The media files of a path -/

/-- `get_dir_files`, without a bound on the size. -/
def dirFiles (path : Text) (exts : List Text) : List Text :=
  ((env.lookup.below w.files (localBackend.loc path)).map (Path.join path)).filter fun file =>
    !isInvalidPath file && decide (extOf file ∈ exts)

/-- The size of a local file, where it can be had. -/
def localSize (path : Text) : Option ℕ := env.lookup.sizeAt w (localBackend.loc path)

/-- `_filter_obvious_extras`. -/
def filterObviousExtras (files : List Text) : List Text :=
  let kept := files.filter fun file => !env.obviousExtra (Path.basename file)
  if files.length ≤ 1 ∨ kept = [] then files else kept

/-- `os.path.exists` of a local path. -/
def localExists (path : Text) : Bool := env.lookup.pathExists w (localBackend.loc path)

/-- `get_bluray_dir`. -/
def blurayDir (path : Text) : Option Text :=
  let index := of "index.bdmv"
  let hasIndex (dir : Text) := env.localExists w (Path.join (Path.join dir (of "BDMV")) index)
  let parent := Path.dirname path
  if path = [] ∨ !env.localExists w path then none
  else if env.lookup.isDir w (localBackend.loc path) then
    if hasIndex path then some path
    else if of "BDMV" <:+ Path.normpath path ∧ env.localExists w (Path.join path index) then
      some parent
    else if of "STREAM" <:+ Path.normpath path ∧ env.localExists w (Path.join parent index) then
      some (Path.dirname parent)
    else if (env.lookup.below w.files (localBackend.loc path)).any fun rel =>
        hasIndex (Path.join path (rel.takeWhile (· ≠ '/'))) then some path
    else none
  else if extOf path ∈ [of ".m2ts", of ".ts"] ∧ of "STREAM" <:+ Path.normpath parent ∧
      env.localExists w (Path.join (Path.dirname parent) index) then
    some (Path.dirname (Path.dirname parent))
  else none

/-- `_discover_files` for local files: the root of a disc, and the files to be handled.
Nothing where the path is not one to be handled. -/
def discover (path : Text) : Option (Option Text × List Text) :=
  let disc := env.blurayDir w path
  let isDisc := disc ≠ none ∧ disc ≠ some []
  if env.lookup.isDir w (localBackend.loc path) then
    if env.incomplete w.files (localBackend.loc path) then some (none, [])
    else if isInvalidPath path then none
    else if isDisc then some (disc, [disc.getD []])
    else
      let files := (env.dirFiles w path mediaExt).filter fun file =>
        env.minFilesize ≤ (env.localSize w file).getD 0
      some (disc, env.filterObviousExtras files)
  else if !isMediaFile path then some (none, [])
  else if isDisc then some (disc, [disc.getD []])
  else match env.localSize w path with
    | none => some (none, [])
    | some n => if n < env.minFilesize then some (none, []) else some (disc, [path])

/-- The path is to be ignored. -/
def ignored (file : Text) : Bool :=
  env.ignoredPath (Path.dirname file) || env.ignoredFile (Path.basename file)

/-- `check_ignore`. -/
def checkIgnore (files : List Text) : List Text :=
  (files.filter fun file => !env.ignoredPath (Path.dirname file)).filter fun file =>
    !env.ignoredFile (Path.basename file)

/-! ## One path -/

/-- What `transfer_media` comes to before its loop. -/
inductive Found
  /-- There is nothing to be done. -/
  | done (success : Bool)
  | items (args : LoopArgs) (items : List (Text × Option MediaInfo))

variable (task : TransferTask) (backend : Option Backend)

/-- The part of `transfer_media` before its loop; an exception counts as a failure. -/
def findItems (path : Text) : Found :=
  if path = [] ∨ !env.localExists w path then .done false
  else if env.pathLocked path then .done false
  else match env.discover w path with
    | none => .done false
    | some (disc, []) => .done disc.isSome
    | some (disc, files) =>
      let files := env.checkIgnore files
      let files := if task.downloader then files else files.filter fun file => !env.blacklisted file
      if files = [] then .done true
      else match env.identify w task path files with
        | .error _ => .done false
        | .ok [] => .done false
        | .ok items =>
          .items
            { inPath := path
              operation := operationOf task.operation
              targetDir := task.targetDir
              unknownDir := task.unknownDir
              blurayDiskDir := disc.getD []
              dstBackend := backend }
            items

/-- What `transfer_media` returns, and the library as it leaves it.  The number of failures
is reported in messages only. -/
structure MediaResult where
  lib : LibraryState
  success : Bool
  failed : ℕ := 0

/-- The directory is removed after a move: nothing failed, and no media file is left. -/
def removes (args : LoopArgs) (st : LoopState) : Bool :=
  st.alerts = 0 ∧ st.failed = 0 ∧ args.operation = .move ∧
    env.lookup.isDir st.lib (localBackend.loc args.inPath) ∧
    env.dirFiles st.lib args.inPath mediaExt = [] ∧
    env.dirFiles st.lib args.inPath [of ".!qb", of ".part"] = []

/-- The files anywhere below a local directory. -/
def namesBelow (path : Text) : List Loc :=
  (env.lookup.below w.files (localBackend.loc path)).map fun rel =>
    localBackend.loc (Path.join path rel)

/-- `shutil.rmtree`. -/
def rmtree (path : Text) : LibraryState where
  files := w.files.unlinkAll (env.namesBelow w path)
  dirs := w.dirs.filter fun l => !(l.1 = localBackend.volume ∧ (path ++ ['/']) <+: l.2 ++ ['/'])
  history := w.history

/-- `_transfer_post_process`; a failure to remove the directory is an exception. -/
def postProcess (args : LoopArgs) (st : LoopState) : MediaResult :=
  if env.removes args st then
    if env.rmtreeFails args.inPath then ⟨st.lib, false, st.failed⟩
    else ⟨env.rmtree st.lib args.inPath, st.success, st.failed⟩
  else ⟨st.lib, st.success, st.failed⟩

/-- `transfer_media`. -/
def transferMedia (path : Text) : MediaResult :=
  match env.findItems w task backend path with
  | .done success => { lib := w, success := success }
  | .items args items => env.postProcess args (items.foldl (env.fileStep args) { lib := w })

/-! ## The task -/

/-- The state of a task. -/
structure TaskState where
  lib : LibraryState
  success : Bool := true
  results : List MediaResult := []

/-- `_process_single`, in the loop of `process`. -/
def pathStep (st : TaskState) (path : Text) : TaskState :=
  let r := env.transferMedia st.lib task backend path
  { lib := r.lib
    success := st.success && r.success && !env.finishFails path
    results := st.results ++ [r] }

/-- `TransferPipeline.process` up to the post-processing. -/
def process : TaskState :=
  if !task.valid then { lib := w, success := false }
  else match env.resolveBackend task.dstBackendId with
    | .error _ => { lib := w, success := false }
    | .ok backend => task.filePaths.foldl (env.pathStep task backend) { lib := w }

/-- The files of a torrent. -/
def dataOf : List Loc :=
  task.filePaths.flatMap fun path => env.lookup.filesAt w (localBackend.loc path)

/-- What became of a task. -/
structure Handled where
  lib : LibraryState
  /-- The torrent was deleted together with its data. -/
  deleted : Bool
  results : List MediaResult

/-- `_handle_task`. -/
def handleTask : Handled :=
  if env.libraryDone task then ⟨w, false, []⟩
  else
    let st := env.process w task
    if st.success ∧ task.downloader ∧ task.operation = of "move" ∧ task.client then
      ⟨{ st.lib with files := st.lib.files.unlinkAll (env.dataOf w task) }, true, st.results⟩
    else ⟨st.lib, false, st.results⟩

end PipelineEnv

end WolfNas
