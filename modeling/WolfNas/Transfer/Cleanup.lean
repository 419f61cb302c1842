import WolfNas.Lib.Run
import WolfNas.Transfer.Existence

/-!
# Deleting records with their files

A record can be deleted together with the source or the library file.  Where it names no
library file, the directory of the work is found by the naming rules: the directory of a film,
or of a season with its parent behind it, is removed with everything in it.

## Main definitions

* `CleanupEnv` — the configuration, and what the deletion calls.
* `CleanupEnv.isSafeDeletePath`, `CleanupEnv.hasMediaFiles` — the tests before a removal.
* `CleanupEnv.getDestPathByInfo` — the directory of a work.
* `Removal`, `CleanupEnv.recordEffect`, `CleanupEnv.deleteHistory` — what is removed, for one
  record and for all.
-/

namespace WolfNas

open Text

/-- The configuration, and what the deletion calls. -/
structure CleanupEnv where
  check : CheckEnv
  /-- The roots for media of no known kind, and the ids of their backends. -/
  unknownRoots : List Text
  unknownBackends : List Text
  /-- The configured categories. -/
  categories : List Text
  /-- The directory of a film, by the naming rules. -/
  movieDir : MediaInfo → Text
  /-- The walk through a local directory comes to the file. -/
  walked : Text → Bool
  /-- The removal of a file or a directory fails. -/
  removeFails : Loc → Bool

/-- What is removed for a record. -/
inductive RemovalKind
  /-- The source. -/
  | source
  /-- The library file the record names. -/
  | file
  /-- The directory of a film or of a season. -/
  | dir
  /-- A file of one of the record's episodes. -/
  | episode
  /-- The directory above that of the season. -/
  | parent
  deriving DecidableEq, Repr

/-- A removal that went through, with the state it found. -/
structure Removal where
  record : TransferRecord
  kind : RemovalKind
  backend : Backend
  path : Text
  before : LibraryState

/-- What an operation leaves, what it has removed, and whether an exception ended it. -/
structure CleanupEffect where
  lib : LibraryState
  removals : List Removal := []
  raised : Bool := false

namespace CleanupEffect

/-- An operation after another, unless an exception has ended that one. -/
def andThen (e : CleanupEffect) (k : LibraryState → CleanupEffect) : CleanupEffect :=
  if e.raised then e else { k e.lib with removals := e.removals ++ (k e.lib).removals }

end CleanupEffect

/-- What comes of the attempt to remove a path. -/
inductive RemovalAttempt
  /-- There is no such backend, or nothing at the path. -/
  | absent
  | failed
  | removed (b : Backend)

/-- The place a path of a backend is resolved to. -/
def Backend.place (b : Backend) (path : Text) : Loc := b.loc (Path.normpath path)

/-- What `re.search(r"S(\d+)", …)` finds. -/
def seasonIn : Text → Option ℕ
  | [] => none
  | c :: s =>
    let digits := s.takeWhile Char.isDigit
    if c = 'S' ∧ digits ≠ [] then some (toNat digits) else seasonIn s

namespace CleanupEnv

variable (env : CleanupEnv) (w : LibraryState)

/-! ## The tests -/

/-- `resolve_backend_by_id`. -/
def resolve (id : Text) : Except OsError (Option Backend) :=
  if id = [] ∨ id = of "local" then .ok (some localBackend) else env.check.resolveBackend id

/-- The library roots, each with the id of its backend. -/
def libraryRoots : List (Text × Text) :=
  env.check.rootsOf .tv ++ env.check.rootsOf .movie ++ env.check.rootsOf .anime ++
    env.unknownRoots.zipIdx.map fun r => (r.1, env.unknownBackends.getD r.2 (of "local"))

/-- `is_target_dir_path`. -/
def isTargetDirPath (path : Text) : Bool :=
  path ≠ [] ∧ ∃ root ∈ env.libraryRoots, Path.isPathInPath root.1 path

/-- `is_safe_delete_path`; no path and no title are empty. -/
def isSafeDeletePath (path title : Text) : Bool :=
  path ∉ ["", "/", "\\", "//"].map of ∧ env.isTargetDirPath path ∧ (title = [] ∨ title <:+: path)

/-- The files anywhere below a path, relative to it. -/
def below (b : Backend) (path : Text) : List Text := env.check.lookup.below w.files (b.place path)

/-- The media files below a local path that `get_dir_files` finds. -/
def foundFiles (path : Text) : List Text :=
  ((env.below w localBackend path).map (Path.join path)).filter fun file =>
    env.walked file && !isInvalidPath file && isMediaFile file

/-- The files directly in a directory, as far as they are listed. -/
def listedFiles (b : Backend) (path : Text) : List Text :=
  let children := ((env.below w b path).filter fun rel => '/' ∉ rel).map (Path.join path)
  match env.check.listed b path with
  | none => children
  | some n => children.take n

/-- `has_media_files`. -/
def hasMediaFiles (path id : Text) : Except OsError Bool :=
  if path = [] then .ok false
  else if id = of "local" then .ok (env.foundFiles w path ≠ [])
  else match env.resolve id with
    | .error e => .error e
    | .ok none => .ok false
    | .ok (some b) => .ok ((env.listedFiles w b path).any isMediaFile)

/-! ## Removals -/

/-- The state without what is at a place and below it. -/
def removeTree (l : Loc) : LibraryState where
  files := w.files.unlinkAll (l :: (env.check.lookup.below w.files l).map fun rel =>
    (l.1, Path.join l.2 rel))
  dirs := w.dirs.filter fun d => !(d.1 = l.1 ∧ (l.2 ++ ['/']) <+: d.2 ++ ['/'])
  history := w.history

/-- The attempt to remove a path. -/
def tryRemove (path id : Text) : RemovalAttempt :=
  match env.resolve id with
  | .error _ => .failed
  | .ok none => .absent
  | .ok (some b) => match env.check.lookup.queryExists w (some b) (Path.normpath path) with
    | .error _ => .failed
    | .ok false => .absent
    | .ok true => if env.removeFails (b.place path) then .failed else .removed b

/-- The removal of a path. -/
def removal (t : TransferRecord) (kind : RemovalKind) (b : Backend) (path : Text) : CleanupEffect where
  lib := env.removeTree w (b.place path)
  removals := [⟨t, kind, b, path, w⟩]

/-- `remove_dir_with_backend`, whose exceptions the caller catches. -/
def removeDir (t : TransferRecord) (kind : RemovalKind) (path id : Text) : CleanupEffect :=
  if env.isSafeDeletePath path [] then
    match env.tryRemove w path id with
    | .removed b => env.removal w t kind b path
    | _ => { lib := w }
  else { lib := w }

/-- The path `delete_media_file` goes for; none where it refuses to. -/
def filePath (dir name : Text) : Option Text :=
  let file := Path.rstripSlash (Path.join dir name)
  if Path.basename file = [] ∨ Path.dirname file ∈ ["", "/", "\\"].map of ∨
      file = Path.dirname file then none
  else some file

/-- `delete_media_file`; what it refuses is caught, what fails is not. -/
def deleteMediaFile (t : TransferRecord) (kind : RemovalKind) (dir name id : Text) : CleanupEffect :=
  match filePath dir name with
  | none => { lib := w }
  | some file => match env.tryRemove w file id with
    | .removed b => env.removal w t kind b file
    | .absent => { lib := w }
    | .failed => { lib := w, raised := true }

/-! ## One record -/

/-- The media a record stands for where it names no file. -/
def namedInfo (t : TransferRecord) : Option MediaInfo :=
  (env.check.lookup.metaInfo t.sourceFilename).map fun m =>
    { m with
      title := some t.title
      category := some t.category
      year := some t.year
      beginSeason := (seasonIn t.seasonEpisode).or m.beginSeason
      type := some (if MediaType.fromString t.mediaType = .movie then .movie else .tv) }

/-- `get_dest_path_by_info`; empty where there is none. -/
def getDestPathByInfo (dest : Text) (m : MediaInfo) : Text :=
  let category := safeCategoryName m.category
  let names := env.check.destNames m
  let base kind := if env.check.categoryFlag kind ∧ category ≠ [] then Path.join dest category else dest
  if dest = [] then []
  else if m.type = some .movie then Path.join (base .movie) (env.movieDir m)
  else if m.type = some .tv then Path.join (Path.join (base .tv) names.1) names.2
  else Path.join (Path.join (base .anime) names.1) names.2

/-- The id of the backend of a record's library file. -/
def backendId (t : TransferRecord) : Text :=
  if orEmpty t.dstBackend = [] then of "local" else orEmpty t.dstBackend

/-- The file holds only episodes of the record. -/
def isEpisodeFile (m : MediaInfo) (file : Text) : Option Bool :=
  (env.check.lookup.metaInfo (Path.basename file)).map fun info =>
    info.getEpisodeList ≠ [] ∧ ∀ e ∈ info.getEpisodeList, e ∈ m.getEpisodeList

/-- The loop over the files of a season's directory; an exception ends it and is caught. -/
def removeListed (t : TransferRecord) (m : MediaInfo) (b : Backend) :
    List Text → LibraryState → CleanupEffect
  | [], w => { lib := w }
  | file :: files, w => match env.isEpisodeFile m file with
    | none => { lib := w }
    | some true =>
      (if env.removeFails (b.place file) then { lib := w } else env.removal w t .episode b file).andThen
        (removeListed t m b files)
    | some false => removeListed t m b files w

/-- The removal of the record's episodes from the directory of the season. -/
def removeEpisodes (t : TransferRecord) (m : MediaInfo) (path id : Text) : CleanupEffect :=
  match env.resolve id with
  | .error _ => { lib := w, raised := true }
  | .ok none => { lib := w }
  | .ok (some b) => env.removeListed t m b (env.listedFiles w b path) w

/-- What is removed of a season. -/
def seasonEffect (t : TransferRecord) (m : MediaInfo) (path id : Text) : CleanupEffect :=
  if m.getEpisodeString = [] then env.removeDir w t .dir path id
  else env.removeEpisodes w t m path id

/-- The directory above that of the season, where no media file is seen in it. -/
def parentEffect (t : TransferRecord) (path id title : Text) : CleanupEffect :=
  if env.isSafeDeletePath path title then
    match env.hasMediaFiles w path id with
    | .error _ => { lib := w, raised := true }
    | .ok true => { lib := w }
    | .ok false => env.removeDir w t .parent path id
  else { lib := w }

/-- What is removed for a record that names no library file. -/
def namedEffect (t : TransferRecord) : CleanupEffect :=
  match env.namedInfo t with
  | none => { lib := w, raised := true }
  | some m =>
    let path := env.getDestPathByInfo t.dest m
    let id := backendId t
    if env.isSafeDeletePath path t.title then
      if m.getSeasonList = [] then env.removeDir w t .dir path id
      else (env.seasonEffect w t m path id).andThen fun w =>
        env.parentEffect w t (Path.dirname path) id t.title
    else { lib := w }

/-- The record names its library file. -/
def Named (t : TransferRecord) : Prop := t.destPath ≠ [] ∧ t.destFilename ≠ []

instance (t : TransferRecord) : Decidable (Named t) := by unfold Named; infer_instance

/-- What is removed of the library. -/
def destEffect (t : TransferRecord) : CleanupEffect :=
  if Named t then
    env.deleteMediaFile w t .file t.destPath t.destFilename (backendId t)
  else env.namedEffect w t

/-- What is removed of the sources; the record is marked where the source is gone. -/
def sourceEffect (t : TransferRecord) : CleanupEffect :=
  let e := env.deleteMediaFile w t .source t.sourcePath t.sourceFilename (of "local")
  if e.removals = [] then e
  else { e with lib := { e.lib with
    history := e.lib.history.update t.id (fun r => { r with sourceState := some (of "deleted") })
      fun _ => rfl } }

/-- The deletion asks for the source. -/
def asksSource (flag : Text) : Bool := flag = of "del_source" ∨ flag = of "del_all"

/-- The deletion asks for the library file. -/
def asksDest (flag : Text) : Bool := flag = of "del_dest" ∨ flag = of "del_all"

/-- What is done for one record. -/
def recordEffect (flag : Text) (t : TransferRecord) : CleanupEffect :=
  (if asksSource flag then env.sourceEffect w t else { lib := w }).andThen fun w =>
    if asksDest flag then env.destEffect w t else { lib := w }

/-! ## All records -/

/-- The state of a deletion: an exception ends it. -/
structure CleanupState where
  lib : LibraryState
  log : List Removal := []
  raised : Bool := false

/-- What a step adds to the log. -/
def logged (flag : Text) (s : CleanupState) (t : TransferRecord) : List Removal :=
  if s.raised then [] else (env.recordEffect s.lib flag t).removals

/-- One step of the loop. -/
def recordStep (flag : Text) (s : CleanupState) (t : TransferRecord) : CleanupState :=
  if s.raised then s
  else
    let e := env.recordEffect s.lib flag t
    { lib := e.lib, log := s.log ++ e.removals, raised := e.raised }

/-- The records with the given ids. -/
def recordsOf (ids : List ℕ) : List TransferRecord :=
  ids.filterMap fun id => w.history.rows.find? fun r => r.id = id

/-- The state before the loop: the records themselves are deleted where only they are to be. -/
def beforeLoop (flag : Text) (ids : List ℕ) : CleanupState :=
  let drop := flag = [] ∨ flag = of "del_log"
  { lib := if drop then
      { w with history := (recordsOf w ids).foldl (fun h t => h.drop t.id) w.history } else w }

/-- `delete_history`; no flag is empty. -/
def deleteHistory (flag : Text) (ids : List ℕ) : CleanupState :=
  (recordsOf w ids).foldl (env.recordStep flag) (beforeLoop w flag ids)

variable {env} {w}

theorem log_recordStep (flag : Text) (s : CleanupState) (t : TransferRecord) :
    (env.recordStep flag s t).log = s.log ++ env.logged flag s t := by
  rw [recordStep, logged]
  split <;> simp

end CleanupEnv

end WolfNas
