import WolfNas.Lib.FileStore
import WolfNas.Lib.Path
import WolfNas.Lib.Run
import WolfNas.Lib.Text

/-!
# The transfer engine

The engine is the only place that touches files.  A transfer puts one media file into the
library and then takes its subtitles and audio tracks along; with `overFlag` it first removes
the file it replaces.  Every operation can fail, before it has done anything, half way, or
after it has written everything, and a failure leaves the files as they are at that moment.

## Main definitions

* `Backend`, `Loc`, `Store` — storage backends, and the files of all of them.
* `Operation`, `Fault` — what a transfer does, and where it fails.
* `EngineEnv.execute` — `TransferEngine._execute`.
* `EngineEnv.runJob` — removing the old file and putting the new one into place.
* `EngineEnv.transfer` — `TransferEngine.transfer`.
* `EngineEnv.transferBlurayDir` — `TransferEngine.transfer_bluray_dir`.
-/

namespace WolfNas

/-- The content of a file: which content it is, and its size. -/
structure Content where
  tag : ℕ
  size : ℕ
  deriving DecidableEq, Repr

/-- A storage backend: its id, the volume its paths live on, and whether it is remote. -/
structure Backend where
  id : ℕ
  volume : ℕ
  remote : Bool
  deriving DecidableEq, Repr

/-- The engine's own local backend. -/
def localBackend : Backend := ⟨0, 0, false⟩

/-- A path on a volume. -/
abbrev Loc := ℕ × Text

/-- The files of all volumes. -/
abbrev Store := FileStore Loc Content

/-- The place of a path of a backend. -/
def Backend.loc (b : Backend) (path : Text) : Loc := (b.volume, path)

/-- What a transfer does with the source. -/
inductive Operation
  | copy
  | move
  | link
  | softlink
  /-- Anything else is refused. -/
  | other
  deriving DecidableEq, Repr

/-- The exceptions of the file operations. -/
inductive OsError
  | fileNotFound
  | sameFile
  | fileExists
  | io
  | valueError
  deriving DecidableEq, Repr

/-- Where the operations on one source fail. -/
inductive Fault
  /-- Nowhere. -/
  | none
  /-- When the old file is removed. -/
  | removeOld
  /-- Before any data is written. -/
  | start
  /-- After part of the data is written. -/
  | partway (written : Content)
  /-- After all data is written. -/
  | finish
  /-- When the source is removed. -/
  | removeSrc
  deriving DecidableEq, Repr

/-- The outcome of an operation, with the files as it leaves them. -/
abbrev Res := Except OsError Unit × Store

/-- What the engine depends on besides its own code. -/
structure EngineEnv where
  /-- Two local paths are on one device. -/
  sameDevice : Text → Text → Bool
  /-- A remote backend copies a file onto itself without an error. -/
  acceptsSelfCopy : Backend → Bool
  /-- What is left of a file that is opened for writing while it is read. -/
  truncated : Content
  /-- Where the operations on a source fail. -/
  fault : Loc → Fault
  /-- Recording the source in the blacklist fails. -/
  blacklistFails : Bool
  /-- The subtitles next to a source, each with the names it may take. -/
  subtitles : Store → Loc → Loc → List (Text × List Text)
  /-- The audio tracks next to a source, each with its name in the library. -/
  tracks : Store → Loc → Loc → List (Text × Text)

namespace EngineEnv

variable (env : EngineEnv)

/-- An operation after another, where that one went through. -/
def andThen (r : Res) (k : Store → Res) : Res :=
  match r with
  | (.ok _, s) => k s
  | (.error e, s) => (.error e, s)

/-- Writing a file, as far as it comes. -/
def writeFile (s : Store) (dst : Loc) (c : Content) : Fault → Res
  | .start => (.error .io, s)
  | .partway x => (.error .io, s.write dst x)
  | .finish => (.error .io, s.write dst c)
  | _ => (.ok (), s.write dst c)

/-- `shutil.copy2`. -/
def copy2 (s : Store) (src dst : Loc) (f : Fault) : Res :=
  match s.read src with
  | none => (.error .fileNotFound, s)
  | some c =>
    if s.fileAt src = s.fileAt dst then (.error .sameFile, s)
    else if !s.opens dst then (.error .io, s)
    else writeFile s dst c f

/-- `remove`, for the source of a move. -/
def removeFile (s : Store) (l : Loc) (f : Fault) : Res :=
  if s.entry l = none then (.error .fileNotFound, s)
  else if f = .removeSrc then (.error .io, s)
  else (.ok (), s.unlink l)

/-- `shutil.move`: a rename on one device, and a copy with the source removed between two. -/
def moveLocal (s : Store) (src dst : Loc) (f : Fault) : Res :=
  match s.entry src with
  | none => (.error .fileNotFound, s)
  | some entry =>
    if env.sameDevice src.2 dst.2 then
      if f = .start then (.error .io, s) else (.ok (), s.rename src dst)
    else match entry with
      | .link target =>
        if s.entry dst ≠ none then (.error .fileExists, s)
        else removeFile (s.symlink target dst) src f
      | .file _ => andThen (copy2 s src dst f) fun s => removeFile s src f

/-- `hardlink`: between two devices it falls back to a copy. -/
def hardlink (s : Store) (src dst : Loc) (f : Fault) : Res :=
  if s.entry src = none then (.error .fileNotFound, s)
  else if s.entry dst ≠ none then (.error .fileExists, s)
  else if env.sameDevice src.2 dst.2 then
    if f = .start then (.error .io, s) else (.ok (), s.copyEntry src dst)
  else copy2 s src dst f

/-- `softlink`. -/
def softlink (s : Store) (src dst : Loc) (f : Fault) : Res :=
  if s.entry dst ≠ none then (.error .fileExists, s)
  else if f = .start then (.error .io, s)
  else (.ok (), s.symlink (s.follow src) dst)

/-- The copy within a remote backend. -/
def serverCopy (b : Backend) (s : Store) (src dst : Loc) (f : Fault) : Res :=
  match s.read src with
  | none => (.error .fileNotFound, s)
  | some c =>
    if src = dst ∧ !env.acceptsSelfCopy b then (.error .io, s)
    else if !s.opens dst then (.error .io, s)
    else writeFile s dst c f

/-- `copy` of a backend. -/
def backendCopy (b : Backend) (s : Store) (src dst : Loc) (f : Fault) : Res :=
  if b.remote then env.serverCopy b s src dst f else copy2 s src dst f

/-- `cross_copy`: no backend offers a fast copy to another, so the data is streamed. -/
def crossCopy (s : Store) (src dst : Loc) (f : Fault) : Res :=
  match s.read src with
  | none => (.error .fileNotFound, s)
  | some c =>
    if !s.opens dst then (.error .io, s)
    else writeFile s dst (if s.fileAt src = s.fileAt dst then env.truncated else c) f

/-- `cross_move`. -/
def crossMove (s : Store) (src dst : Loc) (f : Fault) : Res :=
  andThen (env.crossCopy s src dst f) fun s => removeFile s src f

/-- `_execute`. -/
def execute (s : Store) (operation : Operation) (srcB dstB : Backend) (src dst : Text)
    (f : Fault) : Res :=
  let a := srcB.loc src
  let b := dstB.loc dst
  if srcB = localBackend ∧ dstB = localBackend then
    match operation with
    | .copy => copy2 s a b f
    | .move => env.moveLocal s a b f
    | .link => env.hardlink s a b f
    | .softlink => softlink s a b f
    | .other => (.error .valueError, s)
  else
    -- Links are not supported between backends and become copies.
    match operation with
    | .copy | .link | .softlink =>
      if srcB = dstB then env.backendCopy srcB s a b f else env.crossCopy s a b f
    | .move =>
      if srcB = dstB then andThen (env.backendCopy srcB s a b f) fun s => removeFile s a f
      else env.crossMove s a b f
    | .other => (.error .valueError, s)

/-! ## One file put into place -/

/-- A file to be put into place, with the one that makes room for it. -/
structure Job where
  src : Text
  dst : Text
  old : Option Text
  deriving DecidableEq, Repr

/-- The arguments of a transfer. -/
structure Args where
  src : Text
  dst : Text
  operation : Operation
  overFlag : Bool := false
  oldFile : Option Text := none
  srcBackend : Backend := localBackend
  dstBackend : Backend := localBackend
  deriving DecidableEq, Repr

variable (args : Args)

/-- The old file of a job is there. -/
def replaces (s : Store) (j : Job) : Bool :=
  match j.old with
  | some old => s.isThere (args.dstBackend.loc old)
  | none => false

/-- The files once the old file of a job is out of the way. -/
def cleared (s : Store) (j : Job) : Store :=
  match j.old with
  | some old => if s.isThere (args.dstBackend.loc old) then s.unlink (args.dstBackend.loc old) else s
  | none => s

/-- Where the operations of a job fail. -/
def faultOf (j : Job) : Fault := env.fault (args.srcBackend.loc j.src)

/-- The old file is removed, and the new one put into place. -/
def runJob (s : Store) (j : Job) : Res :=
  if replaces args s j && env.faultOf args j == .removeOld then (.error .io, s)
  else env.execute (cleared args s j) args.operation args.srcBackend args.dstBackend j.src j.dst
    (env.faultOf args j)

/-- A job that was run. -/
structure JobRun where
  before : Store
  job : Job
  outcome : Res

/-- How far a transfer has come. -/
structure Progress where
  store : Store
  error : Option OsError := none
  jobs : List JobRun := []

/-- The error of an outcome. -/
def errorOf : Except OsError Unit → Option OsError
  | .ok _ => none
  | .error e => some e

/-- The next job of a transfer; `swallow` is set where its failure does not matter. -/
def advance (swallow : Bool) (p : Progress) (j : Job) : Progress :=
  let r := env.runJob args p.store j
  { store := r.2
    error := if swallow then none else errorOf r.1
    jobs := p.jobs ++ [⟨p.store, j, r⟩] }

/-- The first name a subtitle can take; none where it is there already. -/
def subtitleTarget (s : Store) (size : ℕ) : List Text → Option Text
  | [] => none
  | name :: names => match s.read (args.dstBackend.loc name) with
    | none => some name
    | some c => if c.size = size then none else subtitleTarget s size names

/-- The body of the loop of `transfer_subtitles`. -/
def subtitleStep (p : Progress) (sub : Text × List Text) : Progress :=
  if p.error.isSome then p
  else match p.store.read (args.srcBackend.loc sub.1) with
    | none => { p with error := some .fileNotFound }
    | some c => match subtitleTarget args p.store c.size sub.2 with
      | none => p
      | some name => env.advance args true p ⟨sub.1, name, none⟩

/-- The body of the loop of `transfer_audio_tracks`. -/
def trackStep (p : Progress) (track : Text × Text) : Progress :=
  if p.error.isSome ∨ (p.store.isThere (args.dstBackend.loc track.2) ∧ !args.overFlag) then p
  else env.advance args false p ⟨track.1, track.2, some track.2⟩

/-- The media file of a transfer. -/
def mainJob : Job := ⟨args.src, args.dst, if args.overFlag then args.oldFile else none⟩

/-- The transfer after its media file is in place. -/
def afterMain (p : Progress) : Progress :=
  if p.error.isSome then p
  else if env.blacklistFails then { p with error := some .io }
  else
    let a := args.srcBackend.loc args.src
    let b := args.dstBackend.loc args.dst
    let p := (env.subtitles p.store a b).foldl (env.subtitleStep args) p
    (env.tracks p.store a b).foldl (env.trackStep args) p

/-- `TransferEngine.transfer`: whether it transferred the file, or the error it raised. -/
def transfer (s : Store) : Except OsError Bool × Progress :=
  if !args.overFlag && s.isThere (args.dstBackend.loc args.dst) then (.ok false, ⟨s, none, []⟩)
  else
    let p := env.afterMain args (env.advance args false ⟨s, none, []⟩ (mainJob args))
    match p.error with
    | some e => (.error e, p)
    | none => (.ok true, p)

/-! ## A directory put into place -/

/-- The body of the loop of `transfer_dir`, on a file by its path relative to the directory. -/
def dirStep (r : Res) (rel : Text) : Res :=
  andThen r fun s =>
    let file := Path.join args.src rel
    let newFile := Path.join args.dst rel
    if s.isThere (args.dstBackend.loc newFile) then (.ok (), s)
    else env.execute s args.operation args.srcBackend args.dstBackend file newFile
      (env.fault (args.srcBackend.loc file))

/-- `TransferEngine.transfer_bluray_dir`, on the files below the directory. -/
def transferBlurayDir (s : Store) (files : List Text) : Res :=
  andThen (files.foldl (env.dirStep args) (.ok (), s)) fun s =>
    if env.blacklistFails then (.error .io, s) else (.ok (), s)

end EngineEnv

end WolfNas
