import WolfNas.Media.Ref
import WolfNas.Retention.Sweep
import WolfNas.Transfer.Engine

/-!
# The library as a transfer sees it

Before a file is transferred, the code asks what the library already has: which files exist
on the target, and which records the transfer history keeps of the work.  This module holds
the state those questions are asked of, and the questions.

## Main definitions

* `LibraryState` — the files, the directories and the transfer history.
* `LookupEnv` — what the questions depend on besides that state.
* `LookupEnv.targetExists`, `LookupEnv.historyDestExists`, `LookupEnv.fileSize` — questions
  about files.
* `LookupEnv.isMediaExists` — where a work lies, or is to lie.
* `getBySource`, `getTransferInfoBy`, `getTransferInfoByRef` — questions about records.
* `LookupEnv.Holds` — a place holds everything another place holds.
-/

namespace WolfNas

open Text

/-- What transfers read and write. -/
structure LibraryState where
  files : Store
  /-- The directories that were made, with or without files in them. -/
  dirs : List Loc
  history : History

/-- Where the naming rules put a work: the directories it may lie in, the one a new work goes
to, and the name of its file without extension. -/
structure Layout where
  candidates : List Text
  preferred : Text
  fileName : Text
  deriving Repr

/-- `RMT_MEDIAEXT`. -/
def mediaExt : List Text :=
  [".mp4", ".mkv", ".ts", ".iso", ".rmvb", ".avi", ".mov", ".mpeg", ".mpg", ".wmv", ".3gp",
    ".asf", ".m4v", ".flv", ".m2ts", ".strm", ".tp"].map of

/-- What `is_media_exists` finds: the target directory and the target file, each empty where
there is none.  The file has an extension only where it exists. -/
structure Place where
  dirExists : Bool := false
  dir : Text := []
  fileExists : Bool := false
  file : Text := []
  deriving DecidableEq, Repr

/-- What the questions depend on besides the state. -/
structure LookupEnv where
  /-- The files anywhere below a directory, each as a path relative to it. -/
  below : Store → Loc → List Text
  /-- The size the system reports for a directory. -/
  dirSize : Loc → ℕ
  /-- A query about a path fails at a backend. -/
  unreachable : Backend → Text → Bool
  /-- What the file name parser reads from a file name; nothing where it fails. -/
  metaInfo : Text → Option MediaInfo
  /-- The file or directory is an extra, by its name. -/
  isExtras : Text → Bool
  /-- The place of a work below a library root, as an extra or not. -/
  layout : Text → MediaInfo → Bool → Layout

/-- The backend an optional one stands for. -/
def orLocal (b : Option Backend) : Backend := b.getD localBackend

/-- The recorded target of a transfer. -/
def destOf (r : TransferRecord) : Text := Path.join r.destPath r.destFilename

/-- The parts of a file name that tell versions apart. -/
def specTokens (m : MediaInfo) : List Text :=
  [m.resourcePix, m.resourceEffect].filterMap fun p =>
    let part := (orEmpty p).strip
    if part = [] ∨ part = of "None" then none else some part.lower

/-- `_spec_signature`. -/
def specSignature (m : MediaInfo) : Text := List.intercalate ['/'] (specTokens m)

namespace LookupEnv

variable (env : LookupEnv) (w : LibraryState)

/-! ## Files -/

/-- `os.path.isdir`, at any place. -/
def isDir (l : Loc) : Bool := l ∈ w.dirs || !(env.below w.files l).isEmpty

/-- `os.path.exists`, at any place. -/
def pathExists (l : Loc) : Bool := w.files.isThere l || env.isDir w l

/-- `_target_exists`: a query that fails at the target is answered by the local files. -/
def targetExists (dst : Option Backend) (path : Text) : Bool :=
  match dst with
  | none => env.pathExists w (localBackend.loc path)
  | some b =>
    if env.unreachable b path then env.pathExists w (localBackend.loc path)
    else env.pathExists w (b.loc path)

/-- The size of a file or a directory; nothing where there is neither. -/
def sizeAt (l : Loc) : Option ℕ :=
  match w.files.read l with
  | some c => some c.size
  | none => if env.isDir w l then some (env.dirSize l) else none

/-- `_file_size`: zero where the size is not to be had, and the local size where the target
knows no such file. -/
def fileSize (backend : Option Backend) (path : Text) : ℕ :=
  match backend with
  | none => (env.sizeAt w (localBackend.loc path)).getD 0
  | some b =>
    if env.unreachable b path then 0
    else match env.sizeAt w (b.loc path) with
      | some n => n
      | none => (env.sizeAt w (localBackend.loc path)).getD 0

/-- `_history_dest_exists`: the recorded target exists, or a local file of the same bare name
lies anywhere below the recorded directory. -/
def historyDestExists (r : TransferRecord) (dst : Option Backend) : Bool :=
  r.destPath ≠ [] ∧ r.destFilename ≠ [] ∧
    (env.targetExists w dst (destOf r) ∨
      dst = none ∧ env.isDir w (localBackend.loc r.destPath) ∧
        ∃ rel ∈ env.below w.files (localBackend.loc r.destPath),
          Path.basename rel = r.destFilename)

/-- `os.path.exists` of the directory a record names as its source. -/
def sourceExists (r : TransferRecord) : Bool :=
  r.sourcePath ≠ [] ∧ env.pathExists w (localBackend.loc r.sourcePath)

/-- The files at a place, each with its counterpart at another: the file there, or all files
below the directory there. -/
def parts (a b : Loc) : List (Loc × Loc) :=
  if w.files.isThere a then [(a, b)]
  else (env.below w.files a).map fun rel => ((a.1, Path.join a.2 rel), (b.1, Path.join b.2 rel))

/-- In the state `w'` the place `b` holds everything that the place `a` held before. -/
def Holds (w' : LibraryState) (a b : Loc) : Prop :=
  env.pathExists w a ∧
    ∀ p ∈ env.parts w a b, ∃ c, w.files.read p.1 = some c ∧ w'.files.read p.2 = some c

/-! ## The place of a work -/

/-- `backend.exists`, which can fail, or `os.path.exists`. -/
def queryExists (dst : Option Backend) (path : Text) : Except OsError Bool :=
  match dst with
  | none => .ok (env.pathExists w (localBackend.loc path))
  | some b => if env.unreachable b path then .error .io else .ok (env.pathExists w (b.loc path))

/-- The first of the extensions under which a file exists. -/
def firstExisting (dst : Option Backend) (base : Text) : List Text → Except OsError (Option Text)
  | [] => .ok none
  | ext :: rest => do
    if ← env.queryExists w dst (base ++ ext) then return some (base ++ ext)
    else firstExisting dst base rest

/-- `_find_existing_file`. -/
def findExistingFile (dst : Option Backend) (dir fileName : Text) :
    Except OsError (Text × Bool) := do
  if dir = [] ∨ fileName = [] then return ([], false)
  else match ← env.firstExisting w dst (Path.join dir fileName) mediaExt with
    | some file => return (file, true)
    | none => return (Path.join dir fileName, false)

/-- `_pick_target_dir`, with the first existing directory so far. -/
def pickTargetDir (dst : Option Backend) (preferred fileName : Text) :
    Option Text → List Text → Except OsError Text
  | first, [] => .ok (first.getD preferred)
  | first, path :: rest => do
    if path = [] then pickTargetDir dst preferred fileName first rest
    else if (← env.findExistingFile w dst path fileName).2 then return path
    else if first.isNone && (← env.queryExists w dst path) then
      pickTargetDir dst preferred fileName (some path) rest
    else pickTargetDir dst preferred fileName first rest

/-- `is_media_exists`: a series needs a season for a directory, and an episode for a file. -/
def isMediaExists (dist : Text) (m : MediaInfo) (extras : Bool) (dst : Option Backend) :
    Except OsError Place := do
  let layout := env.layout dist m extras
  let single := m.type = some .movie
  let fileName := if single ∨ m.getEpisodeList ≠ [] then layout.fileName else []
  if ¬single ∧ m.getSeasonList = [] then return {}
  else
    let dir ← env.pickTargetDir w dst layout.preferred fileName none layout.candidates
    if dir = [] then return {}
    else
      let dirExists ← env.queryExists w dst dir
      let (file, fileExists) ← env.findExistingFile w dst dir fileName
      return ⟨dirExists, dir, fileExists, file⟩

/-! ## File names -/

/-- `_spec_signature_from_filename`. -/
def specSignatureFromFilename (filename : Text) : Text :=
  if filename = [] then [] else ((env.metaInfo filename).map specSignature).getD []

end LookupEnv

/-! ## Records -/

/-- `canonical_metadata_ref`. -/
def canonicalMetadataRef (m : MediaInfo) : Text :=
  let explicit := (orEmpty m.metadataRef).strip
  let identity := (orEmpty m.identityId).strip
  let provider := (orEmpty m.anchorProvider).strip.lower
  let external := (orEmpty m.anchorExternalId).strip
  let tmdbId := m.tmdbId.toText.strip
  if explicit ≠ [] then explicit
  else if identity ≠ [] then of "id:" ++ identity
  else if provider ≠ [] ∧ external ≠ [] then provider.joinColon external
  else if (provider = of "tmdb" ∨ provider = []) ∧ tmdbId.isDigit then of "tmdb:" ++ tmdbId
  else []

/-- The path of a source as records are searched by it. -/
def sourceKey (source : Text) : Text :=
  (Path.normpath source).map fun c => if c = '\\' then '/' else c

/-- `get_by_source`: the newest record of the file, or of anything whose recorded source
directory is that path. -/
def getBySource (history : History) (source : Text) : Option TransferRecord :=
  let path := sourceKey source
  let rows := history.rows.filter fun r =>
    (r.sourcePath = Path.dirname path ∧ r.sourceFilename = Path.basename path) ∨
      r.sourcePath = path
  (rows.insertionSort fun a b => b.date ≤ a.date).head?

/-- `get_transfer_info_by` of a TMDB number, whatever the media type. -/
def getTransferInfoBy (history : History) (tmdbId : IdValue) : List TransferRecord :=
  match tmdbId with
  | .none => []
  | .int n => if n = 0 then [] else history.rows.filter fun r => (r.tmdbId : ℤ) = n
  | .text s =>
    if s.strip.isDigit then history.rows.filter fun r => r.tmdbId = s.strip.toNat else []

/-- The records of the work a reference names. -/
def recordsOfRef (history : History) (ref : Text) : List TransferRecord :=
  let value := ref.strip
  if value = [] then []
  else if value.startsWith (of "id:") then
    history.rows.filter fun r => r.identityId = some (value.drop 3)
  else if ':' ∈ value then
    history.rows.filter fun r =>
      r.anchorProvider = some value.beforeColon ∧ r.anchorExternalId = some value.afterColon
  else if value.isDigit then history.rows.filter fun r => r.tmdbId = value.toNat
  else []

/-- The record is of the media type: a record of an anime may be filed as a series. -/
def ofMediaType (mediaType : Text) (r : TransferRecord) : Bool :=
  mediaType = [] ∨ r.mediaType = mediaType ∨ mediaType = of "anime" ∧ r.mediaType = of "tv"

/-- `SEASON_EPISODE LIKE '%season%'`. -/
def likeSeason (season : Text) (r : TransferRecord) : Bool :=
  season.upper <:+: r.seasonEpisode.upper

/-- `get_transfer_info_by_ref`. -/
def getTransferInfoByRef (history : History) (ref season mediaType : Text) :
    List TransferRecord :=
  (recordsOfRef history ref).filter fun r => ofMediaType mediaType r ∧ likeSeason season r

end WolfNas
