import WolfNas.Transfer.Duplicate

/-!
# One file on its way into the library

`_do_transfer_file` decides from the state of the library what is to become of a file, and
then does it.  Its answer is a tuple that its caller takes apart: how many failures to count,
whether the file was there already, and three paths.  The decision looks at the library only;
the files change when it is carried out.

## Main definitions

* `TransferEnv` — what transfers depend on besides the state of the library.
* `Decision`, `TransferEnv.decision` — what is to become of a file.
* `Outcome`, `TransferEnv.perform` — what was done, as the caller is told.
* `TransferEnv.doTransferFile` — `_do_transfer_file`.

## Main results

* `TransferEnv.performOverwrite_ok`, `TransferEnv.performDisc_ok`, `TransferEnv.performPut_ok` —
  what was done where there is an answer.
-/

namespace WolfNas

open Text

/-- What transfers depend on besides the state of the library. -/
structure TransferEnv where
  lookup : LookupEnv
  engine : EngineEnv
  /-- The target directory is held by another task when the file comes. -/
  busy : Text → Bool
  /-- Making a directory fails. -/
  mkdirFails : Text → Bool
  /-- The path waits among the unrecognised ones. -/
  pending : Text → Bool
  /-- The path is listed among the unrecognised ones, waiting or not. -/
  unknownListed : Text → Bool
  /-- The path may be listed among the unrecognised ones. -/
  needsUnknown : Text → Bool

/-- What is to become of a file. -/
inductive Decision
  /-- It is taken for known; `file` and `dir` say where. -/
  | known (file dir : Text)
  /-- It is a disc whose directory exists. -/
  | discPresent (place : Place)
  /-- It replaces the file that is there. -/
  | overwrite (place : Place)
  /-- There is no telling where it belongs. -/
  | refuse (place : Place)
  /-- It is a disc to be transferred. -/
  | disc (place : Place)
  /-- It is a file to be transferred. -/
  | put (place : Place)

/-- What the caller of `_do_transfer_file` is told; a path that is not given is empty. -/
structure Outcome where
  failed : ℕ := 0
  alerts : ℕ := 0
  existNum : ℕ := 0
  newFile : Text := []
  retFile : Text := []
  retDir : Text := []
  deriving DecidableEq, Repr

namespace TransferEnv

variable (env : TransferEnv) (w : LibraryState) (call : FileCall)

/-! ## The decision -/

/-- `_should_replace_stale_episode`: the file in the library is there, and is not of the size
of the source. -/
def shouldReplaceStaleEpisode (place : Place) (stale : List TransferRecord) : Bool :=
  let destSize := env.lookup.fileSize w call.dstBackend place.file
  let srcSize := env.lookup.fileSize w none call.fileItem
  place.file ≠ [] ∧ stale ≠ [] ∧ env.lookup.targetExists w call.dstBackend place.file ∧
    srcSize ≠ 0 ∧ ¬(destSize ≠ 0 ∧ srcSize = destSize)

/-- A file that is not there yet is put into its place, if it has one. -/
def placeNew (place : Place) : Decision :=
  if call.bluray then if place.dir = [] then .refuse place else .disc place
  else if place.file = [] then .refuse place
  else .put place

/-- What is to become of a file, by what the duplicate checks found. -/
def decision : Finding → Decision
  | .source path => .known path (Path.dirname path)
  | .identity path => .known path (Path.dirname path)
  | .episode place => .known place.file place.dir
  | .fresh place stale =>
    if place.dirExists then
      if call.bluray then .discPresent place
      else if place.fileExists ∧ place.file ≠ [] then
        if call.udf ∨ env.shouldReplaceStaleEpisode w call place stale then .overwrite place
        else .known place.file place.dir
      else placeNew call place
    else if place.dir = [] then .refuse place
    else placeNew call place

/-! ## Carrying it out -/

/-- The target lock of a directory is not to be had. -/
def isBusy (dir : Text) : Bool := dir ≠ [] ∧ env.busy call.fileItem

/-- The extension of the file. -/
def fileExt : Text := (Path.splitext call.fileItem).2

/-- The name of the file that takes the place of another. -/
def replacementFile (place : Place) : Text := (Path.splitext place.file).1 ++ fileExt call

/-- The name of a file in its place. -/
def targetFile (place : Place) : Text := place.file ++ fileExt call

/-- The arguments of the engine for a target. -/
def engineArgs (dst : Text) : EngineEnv.Args where
  src := call.fileItem
  dst := dst
  operation := call.operation
  srcBackend := orLocal call.srcBackend
  dstBackend := orLocal call.dstBackend

/-- The arguments of the engine for a file that takes the place of another. -/
def replaceArgs (place : Place) : EngineEnv.Args :=
  { engineArgs call (replacementFile call place) with
    overFlag := true, oldFile := some place.file }

/-- `os.makedirs` of a local target directory. -/
def makeDirs (place : Place) : Except OsError LibraryState :=
  if place.dirExists ∨ place.dir = [] ∨ call.dstBackend.isSome then .ok w
  else if env.mkdirFails place.dir then .error .io
  else .ok { w with dirs := localBackend.loc place.dir :: w.dirs }

/-- `_record_fail`: a path that is waiting already is not counted again. -/
def recordFail : Outcome :=
  let pending := env.pending call.regPath
  let insert := call.regPath ≠ [] ∧ !pending ∧ env.needsUnknown call.regPath
  { failed := if pending then 0 else 1, alerts := if insert then 1 else 0 }

/-- Replacing the file in the library; the caller is told the path of the old one. -/
def performOverwrite (place : Place) : Except OsError Outcome × LibraryState :=
  let outcome : Outcome :=
    { existNum := 1, newFile := replacementFile call place, retFile := place.file,
      retDir := place.dir }
  if env.isBusy call place.dir then (.ok outcome, w)
  else
    let r := env.engine.transfer (replaceArgs call place) w.files
    (r.1.map fun _ => outcome, { w with files := r.2.store })

/-- Transferring a disc. -/
def performDisc (place : Place) : Except OsError Outcome × LibraryState :=
  match env.makeDirs w call place with
  | .error e => (.error e, w)
  | .ok w =>
    let outcome : Outcome :=
      { newFile := place.file, retFile := place.file, retDir := place.dir }
    if env.isBusy call place.dir then (.ok { outcome with existNum := 1 }, w)
    else
      let args := engineArgs call place.dir
      let r := env.engine.transferBlurayDir args w.files
        (env.lookup.below w.files (args.srcBackend.loc call.fileItem))
      (r.1.map fun _ => outcome, { w with files := r.2 })

/-- Transferring a file. -/
def performPut (place : Place) : Except OsError Outcome × LibraryState :=
  match env.makeDirs w call place with
  | .error e => (.error e, w)
  | .ok w =>
    let file := targetFile call place
    let outcome : Outcome := { newFile := file, retFile := file, retDir := place.dir }
    if env.isBusy call place.dir then (.ok { outcome with existNum := 1 }, w)
    else
      let r := env.engine.transfer (engineArgs call file) w.files
      (r.1.map fun ok => if ok then outcome else env.recordFail call,
        { w with files := r.2.store })

/-- What a decision comes to. -/
def perform : Decision → Except OsError Outcome × LibraryState
  | .known file dir => (.ok { existNum := 1, newFile := file, retFile := file, retDir := dir }, w)
  | .discPresent place =>
    (.ok { newFile := place.file, retFile := place.file, retDir := place.dir }, w)
  | .overwrite place => env.performOverwrite w call place
  | .refuse place =>
    match env.makeDirs w call place with
    | .error e => (.error e, w)
    | .ok w => (.ok (env.recordFail call), w)
  | .disc place => env.performDisc w call place
  | .put place => env.performPut w call place

/-! ## What an answer tells -/

section Answers

variable {env w call} {w' : LibraryState} {place : Place} {o : Outcome}

private theorem map_ok {α β : Type} {x : Except OsError α} {f : α → β} {b : β}
    (h : x.map f = .ok b) : ∃ a, x = .ok a ∧ b = f a := by
  cases x with
  | error e => cases h
  | ok a => exact ⟨a, rfl, (Except.ok.inj h).symm⟩

/-- Making the target directory changes no file. -/
theorem files_makeDirs (h : env.makeDirs w call place = .ok w') : w'.files = w.files := by
  rw [makeDirs] at h
  split_ifs at h
  · rw [← Except.ok.inj h]
  · rw [← Except.ok.inj h]

/-- An overwrite that is answered for found its target busy, or went through. -/
theorem performOverwrite_ok (h : env.performOverwrite w call place = (.ok o, w')) :
    o = { existNum := 1, newFile := replacementFile call place, retFile := place.file,
          retDir := place.dir } ∧
      (env.isBusy call place.dir = true ∧ w' = w ∨
        env.isBusy call place.dir = false ∧
          w'.files = (env.engine.transfer (replaceArgs call place) w.files).2.store ∧
          ∃ b, (env.engine.transfer (replaceArgs call place) w.files).1 = .ok b) := by
  rw [performOverwrite] at h
  simp only at h
  split_ifs at h with hbusy
  · obtain ⟨ho, rfl⟩ := Prod.ext_iff.mp h
    exact ⟨(Except.ok.inj ho).symm, .inl ⟨hbusy, rfl⟩⟩
  · obtain ⟨ho, rfl⟩ := Prod.ext_iff.mp h
    obtain ⟨b, hb, rfl⟩ := map_ok ho
    exact ⟨rfl, .inr ⟨by simpa using hbusy, rfl, b, hb⟩⟩

/-- A disc that is answered for has its directory; it found it busy, or went through. -/
theorem performDisc_ok (h : env.performDisc w call place = (.ok o, w')) :
    ∃ w₁, env.makeDirs w call place = .ok w₁ ∧
      (env.isBusy call place.dir = true ∧ w' = w₁ ∧
          o = { existNum := 1, newFile := place.file, retFile := place.file,
                retDir := place.dir } ∨
        env.isBusy call place.dir = false ∧
          o = { newFile := place.file, retFile := place.file, retDir := place.dir } ∧
          let args := engineArgs call place.dir
          let r := env.engine.transferBlurayDir args w.files
            (env.lookup.below w.files (args.srcBackend.loc call.fileItem))
          w'.files = r.2 ∧ r.1 = .ok ()) := by
  rw [performDisc] at h
  cases hdirs : env.makeDirs w call place with
  | error e =>
    rw [hdirs] at h
    cases h
  | ok w₁ =>
    rw [hdirs] at h
    simp only [files_makeDirs hdirs] at h
    refine ⟨w₁, rfl, ?_⟩
    split_ifs at h with hbusy
    · obtain ⟨ho, rfl⟩ := Prod.ext_iff.mp h
      exact .inl ⟨hbusy, rfl, (Except.ok.inj ho).symm⟩
    · obtain ⟨ho, rfl⟩ := Prod.ext_iff.mp h
      obtain ⟨_, hr, rfl⟩ := map_ok ho
      exact .inr ⟨by simpa using hbusy, rfl, rfl, hr⟩

/-- A file that is answered for has its directory; it found it busy, or was transferred, or
found its target taken. -/
theorem performPut_ok (h : env.performPut w call place = (.ok o, w')) :
    ∃ w₁, env.makeDirs w call place = .ok w₁ ∧
      (env.isBusy call place.dir = true ∧ w' = w₁ ∧
          o = { existNum := 1, newFile := targetFile call place, retFile := targetFile call place,
                retDir := place.dir } ∨
        env.isBusy call place.dir = false ∧
          let r := env.engine.transfer (engineArgs call (targetFile call place)) w.files
          w'.files = r.2.store ∧
            (r.1 = .ok true ∧
                o = { newFile := targetFile call place, retFile := targetFile call place,
                      retDir := place.dir } ∨
              r.1 = .ok false ∧ o = env.recordFail call)) := by
  rw [performPut] at h
  cases hdirs : env.makeDirs w call place with
  | error e =>
    rw [hdirs] at h
    cases h
  | ok w₁ =>
    rw [hdirs] at h
    simp only [files_makeDirs hdirs] at h
    refine ⟨w₁, rfl, ?_⟩
    split_ifs at h with hbusy
    · obtain ⟨ho, rfl⟩ := Prod.ext_iff.mp h
      exact .inl ⟨hbusy, rfl, (Except.ok.inj ho).symm⟩
    · obtain ⟨ho, rfl⟩ := Prod.ext_iff.mp h
      obtain ⟨b, hr, rfl⟩ := map_ok ho
      refine .inr ⟨by simpa using hbusy, rfl, ?_⟩
      cases b with
      | false => exact .inr ⟨hr, rfl⟩
      | true => exact .inl ⟨hr, rfl⟩

/-- A file with no telling where it belongs is counted as failed, and no file is touched. -/
theorem performRefuse_ok (h : env.perform w call (.refuse place) = (.ok o, w')) :
    w'.files = w.files ∧ o = env.recordFail call := by
  rw [perform] at h
  cases hdirs : env.makeDirs w call place with
  | error e =>
    rw [hdirs] at h
    cases h
  | ok w₁ =>
    rw [hdirs] at h
    obtain ⟨ho, rfl⟩ := Prod.ext_iff.mp h
    exact ⟨files_makeDirs hdirs, (Except.ok.inj ho).symm⟩

end Answers

/-- `_do_transfer_file`. -/
def doTransferFile : Except OsError Outcome × LibraryState :=
  match env.lookup.duplicateChecks w call with
  | .error e => (.error e, w)
  | .ok finding => env.perform w call (env.decision w call finding)

end TransferEnv

end WolfNas
