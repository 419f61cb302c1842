import WolfNas.Transfer.Placing

/-!
# The loop over the files of a transfer

`_transfer_files_loop` takes the identified files one after another.  It decides whether a
file is handed to `_do_transfer_file` at all, and reads off the answer whether to count a
failure, to record the destination in the history and hand it to the scraper, or to pass on.
Beside the count of failures it keeps a flag, and only the flag says whether it succeeded.

## Main definitions

* `LoopEnv`, `LoopArgs` — what the loop depends on, and its arguments.
* `LoopEnv.prepare` — what happens before a file is handed on.
* `LoopEnv.handling` — what the answer of `_do_transfer_file` is taken for.
* `LoopState`, `LoopEnv.fileStep` — the state of the loop, and its body.
-/

namespace WolfNas

open Text

/-- What the loop depends on besides the state of the library. -/
structure LoopEnv extends TransferEnv where
  /-- The file is a sample, by its path. -/
  isSample : Text → Bool
  /-- The file lies in a directory of extras. -/
  inExtrasDir : Text → Bool
  /-- The directory is a collection, by its name. -/
  isCollection : Text → Bool
  /-- A metadata provider has told something of the media. -/
  hasProviderData : MediaInfo → Bool
  /-- A metadata provider takes the text for a reference. -/
  parsesRef : Text → Bool
  /-- The name of a media without a title. -/
  getName : MediaInfo → Text
  /-- The library root for a media; empty where there is none. -/
  bestTargetPath : Text → MediaInfo → Text
  /-- The backend of a library root. -/
  resolveDstBackend : Text → MediaInfo → Option Backend
  /-- The directory for unrecognised files; empty where there is none. -/
  unknownPath : Text → Text
  /-- Recording the transfer of a path in the history fails. -/
  recordFails : Text → Bool
  /-- What follows fails: handing it to the scraper, or marking it as recognised. -/
  handOnFails : Text → Bool

/-- The arguments of the loop.  A path that is not given is empty. -/
structure LoopArgs where
  inPath : Text
  operation : Operation
  targetDir : Text := []
  unknownDir : Text := []
  blurayDiskDir : Text := []
  udf : Bool := false
  srcBackend : Option Backend := none
  dstBackend : Option Backend := none

/-- A destination that was recorded: the state before its file was handled, the state when it
was recorded, and the path that went into the history and, where a scrape was submitted, into
that too. -/
structure Recorded where
  before : LibraryState
  call : FileCall
  after : LibraryState
  outPath : Text

/-- The state of the loop. -/
structure LoopState where
  lib : LibraryState
  failed : ℕ := 0
  alerts : ℕ := 0
  success : Bool := true
  /-- The loop has returned. -/
  ended : Bool := false
  records : List Recorded := []

/-- What happens before a file is handed to `_do_transfer_file`. -/
inductive Prepared
  /-- It is taken for a sample or an extra. -/
  | skipped
  /-- An exception is raised. -/
  | broken
  /-- There is no telling what it is. -/
  | unrecognised
  /-- There is no library for it. -/
  | noTarget
  /-- The library root does not exist. -/
  | noDirectory
  | ready (call : FileCall)

/-- What the answer of `_do_transfer_file` is taken for. -/
inductive Handling
  /-- Nothing is recorded. -/
  | passed
  /-- The file in the library is of another size. -/
  | mismatch
  /-- The path is recorded as the destination. -/
  | recorded (path : Text)

namespace LoopEnv

variable (env : LoopEnv) (args : LoopArgs)

/-! ## Before a file is handed on -/

/-- `bool(int(tmdb_id or 0))`; nothing where that raises. -/
def identifiedBy : IdValue → Option Bool
  | .none => some false
  | .int n => some (n ≠ 0)
  | .text s =>
    if s = [] then some false
    else if s.strip.isDigit then some (s.strip.toNat ≠ 0)
    else none

/-- `get_title_string`. -/
def titleString (m : MediaInfo) : Text :=
  let name := if orEmpty m.title ≠ [] then orEmpty m.title else env.getName m
  let year := orEmpty m.year
  if name = [] then [] else if year = [] then name else name ++ of " (" ++ year ++ of ")"

/-- The media has something to be filed under: a reference, and a title of more than one
character, unless it is a number. -/
def recognised (m : MediaInfo) : Bool :=
  let title := env.titleString m
  let core : Text := strip (title.filter fun c => c ≠ '(' ∧ c ≠ ')')
  let anchored := orEmpty m.anchorExternalId ≠ []
  let profileRef := m.contentProfile ≠ [] ∧ m.contentProfile ≠ of "default" ∧ anchored
  let anchorRef := orEmpty m.anchorProvider ≠ [] ∧ anchored
  let legacyRef := env.parsesRef m.tmdbId.toText.strip
  (env.hasProviderData m ∨ profileRef ∨ legacyRef ∨ anchorRef) ∧ title.strip ≠ [] ∧
    (2 ≤ core.length ∨ core.isDigit)

/-- A file without an identity is skipped as an extra, or as what comes with a collection. -/
def skipsUnidentified (fileItem : Text) (media : Option MediaInfo) : Bool :=
  let parent := Path.dirname fileItem
  env.lookup.isExtras fileItem ∨ env.inExtrasDir fileItem ∨
    (∃ m ∈ media, m.beginEpisode = none) ∧
      (env.isCollection (Path.basename parent) ∨
        env.isCollection (Path.basename (Path.dirname parent)))

/-- The size of the source can be had. -/
def sourceSized (w : LibraryState) (fileItem : Text) : Bool :=
  match args.srcBackend with
  | none => (env.lookup.sizeAt w (localBackend.loc fileItem)).isSome
  | some b => !env.lookup.unreachable b fileItem

/-- The path a file is known by in the history and among the unrecognised ones. -/
def regPathOf (fileItem : Text) : Text :=
  if args.blurayDiskDir = [] then fileItem else args.blurayDiskDir

/-- What `_do_transfer_file` is handed. -/
def fileCall (fileItem : Text) (m : MediaInfo) (distPath : Text) (backend : Option Backend) :
    FileCall where
  fileItem := fileItem
  regPath := regPathOf args fileItem
  media := m
  distPath := distPath
  bluray := args.blurayDiskDir ≠ []
  operation := args.operation
  udf := args.udf
  srcBackend := args.srcBackend
  dstBackend := backend

/-- Where a recognised file is to go. -/
def locate (w : LibraryState) (fileItem : Text) (m : MediaInfo) : Prepared :=
  let distPath := if args.targetDir = [] then env.bestTargetPath args.inPath m else args.targetDir
  let backend := args.dstBackend <|> env.resolveDstBackend distPath m
  if !env.sourceSized args w fileItem then .broken
  else if distPath = [] then .noTarget
  else if backend = none ∧ !env.lookup.pathExists w (localBackend.loc distPath) then .noDirectory
  else .ready (fileCall args fileItem m distPath backend)

/-- What happens before a file is handed to `_do_transfer_file`. -/
def prepare (w : LibraryState) (fileItem : Text) (media : Option MediaInfo) : Prepared :=
  if !args.udf && env.isSample fileItem then .skipped
  else match identifiedBy (media.elim .none MediaInfo.tmdbId) with
    | none => .broken
    | some identified =>
      if !args.udf && !identified && env.skipsUnidentified fileItem media then .skipped
      else match media with
        | none => .unrecognised
        | some m => if env.recognised m then env.locate args w fileItem m else .unrecognised

/-- What is handed on is the file of the item. -/
theorem prepare_ready {env : LoopEnv} {args : LoopArgs} {w : LibraryState} {fileItem : Text}
    {media : Option MediaInfo} {call : FileCall}
    (h : env.prepare args w fileItem media = .ready call) :
    ∃ m distPath backend, media = some m ∧ call = fileCall args fileItem m distPath backend := by
  rw [prepare.eq_def] at h
  split_ifs at h
  cases media with
  | none =>
    split at h
    · cases h
    · split_ifs at h
  | some m =>
    split at h
    · cases h
    · split_ifs at h
      simp only [locate] at h
      split_ifs at h <;> exact ⟨m, _, _, rfl, (Prepared.ready.inj h).symm⟩

/-- `_handle_unrecognized_file`: whether the file is counted as failed.  It is put aside
under its own name where there is a directory for that. -/
def handleUnrecognized (w : LibraryState) (fileItem : Text) :
    Except OsError Bool × LibraryState :=
  let regPath := regPathOf args fileItem
  let dir := if args.unknownDir = [] then env.unknownPath args.inPath else args.unknownDir
  if env.unknownListed regPath || !env.needsUnknown regPath then (.ok false, w)
  else if dir = [] then (.ok true, w)
  else
    let r := env.engine.transfer
      { src := fileItem, dst := Path.join dir (Path.basename fileItem)
        operation := args.operation, srcBackend := orLocal args.srcBackend } w.files
    (r.1.map fun _ => true, { w with files := r.2.store })

/-! ## After `_do_transfer_file` -/

/-- The size of a path at a backend, where it can be had. -/
def sizeOf (w : LibraryState) (backend : Option Backend) (path : Text) : Option ℕ :=
  match backend with
  | none => env.lookup.sizeAt w (localBackend.loc path)
  | some b => if env.lookup.unreachable b path then none else env.lookup.sizeAt w (b.loc path)

/-- The source and the file in the library have sizes, which differ.  The target is looked up
at the backend the loop was given, not at the one the file went to. -/
def sizesDiffer (w : LibraryState) (call : FileCall) (file : Text) : Bool :=
  match env.sizeOf w args.srcBackend call.regPath, env.sizeOf w args.dstBackend file with
  | some n, some m => n ≠ 0 ∧ m ≠ 0 ∧ n ≠ m
  | _, _ => false

/-- The answer means a failure. -/
def refused (o : Outcome) : Bool := 0 < o.failed ∨ o.retFile = [] ∧ o.retDir = []

/-- What the answer of `_do_transfer_file` is taken for. -/
def handling (w : LibraryState) (call : FileCall) (o : Outcome) : Handling :=
  if refused o ∨ 0 < o.existNum then
    if 0 < o.existNum ∧ o.retFile ≠ [] ∧ o.retDir ≠ [] then
      if env.sizesDiffer args w call o.retFile then .mismatch else .recorded o.retFile
    else .passed
  else if env.lookup.isExtras call.fileItem then .passed
  else .recorded (if call.bluray then o.retDir else o.newFile)

/-! ## The loop -/

/-- An exception in the body of the loop. -/
def failStep (st : LoopState) (w : LibraryState) : LoopState :=
  { st with lib := w, failed := st.failed + 1, success := false }

/-- The rest of the body once `_do_transfer_file` has answered. -/
def settle (st : LoopState) (call : FileCall) (w : LibraryState) (o : Outcome) : LoopState :=
  let st' :=
    { st with
      lib := w
      failed := st.failed + o.failed
      alerts := st.alerts + o.alerts
      success := st.success && !refused o }
  match env.handling args w call o with
  | .passed => st'
  | .mismatch => { st' with failed := st'.failed + 1, alerts := st'.alerts + 1 }
  | .recorded path =>
    if env.recordFails call.regPath then failStep st' w
    else
      let st' := { st' with records := st.records ++ [⟨st.lib, call, w, path⟩] }
      if env.handOnFails call.regPath then failStep st' w else st'

/-- The body of the loop of `_transfer_files_loop`. -/
def fileStep (st : LoopState) (item : Text × Option MediaInfo) : LoopState :=
  if st.ended then st
  else match env.prepare args st.lib item.1 item.2 with
    | .skipped => st
    | .broken => failStep st st.lib
    | .unrecognised =>
      match env.handleUnrecognized args st.lib item.1 with
      | (.error _, w) => failStep st w
      | (.ok counted, w) =>
        let n := if counted then 1 else 0
        { st with
          lib := w, failed := st.failed + n, alerts := st.alerts + n, success := false
          ended := args.udf }
    | .noTarget => { st with failed := st.failed + 1, alerts := st.alerts + 1 }
    | .noDirectory => { st with success := false, ended := true }
    | .ready call =>
      match env.doTransferFile st.lib call with
      | (.error _, w) => failStep st w
      | (.ok o, w) => env.settle args st call w o

end LoopEnv

end WolfNas
