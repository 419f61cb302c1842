import WolfNas.Lib.Program
import WolfNas.Media.EpisodeText
import WolfNas.Transfer.NamingFields
import WolfNas.Transfer.Pipeline

/-!
# Which episodes the library has

Whether a season is complete is asked twice: the transfer history is asked first, and the
files of the season's directories where the history names nothing.  This module holds both
questions, and says what an episode that is not reported missing rests on.

## Main definitions

* `CheckEnv` — the configured libraries, and what the questions call.
* `CheckEnv.scanMissing` — `MediaExistenceChecker.get_no_exists_medias` for a series.
* `CheckEnv.transferred` — the episodes of the season that the history names.
* `CheckEnv.missingEpisodes` — `get_no_exists_medias` of the transfer service.
* `CheckEnv.InHistory`, `CheckEnv.InFiles`, `CheckEnv.InLibrary` — what it is for an episode to
  be in the library.

## Main results

* `CheckEnv.inLibrary_of_not_missing` — an episode of a proper season that is not reported
  missing is in the library.
-/

namespace WolfNas

open Text

/-- The configured libraries, and what the questions about them call. -/
structure CheckEnv where
  lookup : LookupEnv
  /-- The backend with an id; none where there is no such backend. -/
  resolveBackend : Text → Except OsError (Option Backend)
  /-- The library roots for a kind of media. -/
  roots : MediaType → List Text
  /-- The ids of the backends of these roots, as far as they are configured. -/
  backends : MediaType → List Text
  /-- New works of the kind go below the directory of their category. -/
  categoryFlag : MediaType → Bool
  /-- The directory of a work and the directory of its season, by the naming rules. -/
  destNames : MediaInfo → Text × Text
  /-- The number of entries of a remote directory that are listed before the listing fails. -/
  listed : Backend → Text → Option ℕ

/-- `_layout_dirs`. -/
def layoutDirs (base dirName category : Text) (useCategory : Bool) : List Text :=
  let flat := Path.join base dirName
  let categorized := Path.join (Path.join base category) dirName
  if category = [] then [flat]
  else if useCategory then [categorized, flat]
  else [flat, categorized]

/-- The kind of library a series lies in. -/
def seriesKind (m : MediaInfo) : MediaType := if m.type = some .anime then .anime else .tv

namespace CheckEnv

variable (env : CheckEnv) (w : LibraryState)

/-! ## Files -/

/-- `_exists`. -/
def existsOn (path id : Text) : Except OsError Bool :=
  if id = of "local" then .ok (env.lookup.pathExists w (localBackend.loc path))
  else do
    match ← env.resolveBackend id with
    | none => return false
    | some b => env.lookup.queryExists w (some b) path

/-- The media files directly in a remote directory, as far as they are listed. -/
def remoteFiles (b : Backend) (path : Text) : List Text :=
  let children := (env.lookup.below w.files (b.loc path)).filter fun rel => '/' ∉ rel
  let listed := match env.listed b path with
    | none => children
    | some n => children.take n
  (listed.map (Path.join path)).filter fun file => extOf file ∈ mediaExt

/-- `_get_dir_files`. -/
def filesOn (path id : Text) : Except OsError (List Text) :=
  if path = [] then .ok []
  else if id = of "local" then .ok (env.lookup.dirFiles w path mediaExt)
  else do
    match ← env.resolveBackend id with
    | none => return []
    | some b => return env.remoteFiles w b path

/-- The roots for a kind of media, each with the id of its backend. -/
def rootsOf (kind : MediaType) : List (Text × Text) :=
  (env.roots kind).zipIdx.map fun r => (r.1, (env.backends kind).getD r.2 (of "local"))

/-- The media files in one directory that a season may lie in. -/
def seasonDirFiles (m : MediaInfo) (id mediaPath : Text) : Except OsError (List Text) := do
  let checkPath := Path.join mediaPath (env.destNames m).2
  if ← env.existsOn w checkPath id then env.filesOn w checkPath id else return []

/-- The media files of a season below one root. -/
def seasonFiles (m : MediaInfo) (root : Text × Text) : Except OsError (List Text) := do
  let dirs := layoutDirs root.1 (env.destNames m).1 (safeCategoryName m.category)
    (env.categoryFlag (seriesKind m))
  let files ← dirs.mapM (env.seasonDirFiles w m root.2)
  return files.flatten

/-- The names of a work that a file may bear. -/
def targetNames (m : MediaInfo) : List Text :=
  ([m.cnName, m.enName, m.title].map fun name => (orEmpty name).strip).filter (· ≠ [])

/-- A parsed file bears a name of the work, or none that can be read. -/
def bearsName (m info : MediaInfo) : Bool :=
  info.getName.strip = [] ∨
    ∃ name ∈ targetNames m, info.getName.strip <:+: name ∨ name <:+: info.getName.strip

/-- The episodes of the season that a file holds, by its name. -/
def fileEpisodes (m : MediaInfo) (season : ℕ) (file : Text) : Except OsError (List ℕ) :=
  match env.lookup.metaInfo (Path.basename file) with
  | none => .error .io
  | some info =>
    if info.getSeasonList = [] ∨ info.getEpisodeList = [] then .ok []
    else if !bearsName m info then .ok []
    else if !info.isInSeason season then .ok []
    else .ok info.getEpisodeList

/-- The episodes of the season that lie below one root. -/
def rootEpisodes (m : MediaInfo) (season : ℕ) (root : Text × Text) :
    Except OsError (List ℕ) := do
  let files ← env.seasonFiles w m root
  let episodes ← files.mapM (env.fileEpisodes m season)
  return episodes.flatten

/-- `MediaExistenceChecker.get_no_exists_medias` for a series. -/
def scanMissing (m : MediaInfo) (season total : ℕ) : Except OsError (List ℕ) :=
  if season = 0 ∨ total = 0 then .ok []
  else do
    let found ← (env.rootsOf (seriesKind m)).mapM (env.rootEpisodes w m season)
    return (List.range' 1 total).filter (· ∉ found.flatten)

/-- `MediaExistenceChecker.get_no_exists_medias` for a film: whether one root has it. -/
def movieExists (m : MediaInfo) : Except OsError Bool := do
  let found ← (env.rootsOf .movie).mapM fun root => do
    let favorite ← env.filesOn w (Path.join (Path.join root.1 (of "精选")) (env.destNames m).1) root.2
    let dirs := layoutDirs root.1 (env.destNames m).1 (safeCategoryName m.category)
      (env.categoryFlag .movie)
    let files ← dirs.mapM fun dir => env.filesOn w dir root.2
    return decide (favorite ≠ [] ∨ files.flatten ≠ [])
  return found.any id

/-! ## History -/

/-- `_history_dest_exists`, as it is asked here: the id of the backend stands where a backend
is expected, so that the query falls back to the local files. -/
def destStillExists (r : TransferRecord) : Bool :=
  if (orEmpty r.dstBackend = []) ∨ orEmpty r.dstBackend = of "local" then
    env.lookup.historyDestExists w r none
  else r.destPath ≠ [] ∧ r.destFilename ≠ [] ∧
    env.lookup.pathExists w (localBackend.loc (destOf r))

/-- The source and the target of a record are both still there. -/
def live (r : TransferRecord) : Bool := env.lookup.sourceExists w r && env.destStillExists w r

/-- The records of a season of a work. -/
def seasonRecords (m : MediaInfo) (season : ℕ) : List TransferRecord :=
  getTransferInfoByRef w.history (canonicalMetadataRef m) ('S' :: pad2 season)
    ((m.type.map MediaType.value).getD [])

/-- The episodes of the season that the history names; nothing where an exception ends the
reading. -/
def transferred (m : MediaInfo) (season : ℕ) : Option (List ℕ) :=
  (((seasonRecords w m season).filter (env.live w)).mapM fun r =>
    recordedEpisodes season r.seasonEpisode).map List.flatten

/-- `get_no_exists_medias` of the transfer service, for a series. -/
def missingEpisodes (m : MediaInfo) (season total : ℕ) : Except OsError (List ℕ) :=
  if season ≠ 0 ∧ total ≠ 0 then
    match env.transferred w m season with
    | some (e :: es) => .ok ((List.range' 1 total).filter (· ∉ e :: es))
    | _ => env.scanMissing w m season total
  else env.scanMissing w m season total

/-! ## Being in the library -/

/-- A record of the season whose source and target are still there names the episode. -/
def InHistory (m : MediaInfo) (season e : ℕ) : Prop :=
  ∃ r ∈ seasonRecords w m season, env.live w r = true ∧
    ∃ episodes, recordedEpisodes season r.seasonEpisode = some episodes ∧ e ∈ episodes

/-- A file below a root, in a directory of the season, is one of the episode by its name. -/
def InFiles (m : MediaInfo) (season e : ℕ) : Prop :=
  ∃ root ∈ env.rootsOf (seriesKind m),
    ∃ dir ∈ layoutDirs root.1 (env.destNames m).1 (safeCategoryName m.category)
      (env.categoryFlag (seriesKind m)),
    ∃ files, env.filesOn w (Path.join dir (env.destNames m).2) root.2 = .ok files ∧
      ∃ file ∈ files, ∃ info, env.lookup.metaInfo (Path.basename file) = some info ∧
        bearsName m info ∧ info.isInSeason season ∧ e ∈ info.getEpisodeList

/-- The episode is in the library, by file or by history. -/
def InLibrary (m : MediaInfo) (season e : ℕ) : Prop :=
  env.InHistory w m season e ∨ env.InFiles w m season e

variable {env w} {m : MediaInfo} {season total e : ℕ}

theorem inHistory_of_transferred {episodes : List ℕ}
    (h : env.transferred w m season = some episodes) (he : e ∈ episodes) :
    env.InHistory w m season e := by
  rw [transferred, Option.map_eq_some_iff] at h
  obtain ⟨read, hread, rfl⟩ := h
  obtain ⟨one, hone, he⟩ := List.mem_flatten.mp he
  obtain ⟨r, hr, hrec⟩ := Raise.exists_of_mem_mapM_some hread hone
  have hlive : r ∈ seasonRecords w m season ∧ env.live w r = true := List.mem_filter.mp hr
  exact ⟨r, hlive.1, hlive.2, one, hrec, he⟩

/-- What a file counts for is read from its name. -/
theorem fileEpisodes_spec {file : Text} {episodes : List ℕ}
    (h : env.fileEpisodes m season file = .ok episodes) (he : e ∈ episodes) :
    ∃ info, env.lookup.metaInfo (Path.basename file) = some info ∧
      bearsName m info ∧ info.isInSeason season ∧ e ∈ info.getEpisodeList := by
  rw [fileEpisodes] at h
  cases hinfo : env.lookup.metaInfo (Path.basename file) with
  | none => simp [hinfo] at h
  | some info =>
    refine ⟨info, rfl, ?_⟩
    simp only [hinfo] at h
    split_ifs at h with hlists hname hseason
    all_goals obtain rfl := Except.ok.inj h
    · simp at he
    · simp at he
    · simp at he
    · exact ⟨by simpa using hname, by simpa using hseason, he⟩

theorem inFiles_of_rootEpisodes {root : Text × Text} {episodes : List ℕ}
    (hroot : root ∈ env.rootsOf (seriesKind m))
    (h : env.rootEpisodes w m season root = .ok episodes) (he : e ∈ episodes) :
    env.InFiles w m season e := by
  simp only [rootEpisodes, seasonFiles, Raise.bind_ok_iff, Raise.pure_ok_iff] at h
  obtain ⟨files, ⟨found, hfound, rfl⟩, read, hread, rfl⟩ := h
  obtain ⟨one, hone, he⟩ := List.mem_flatten.mp he
  obtain ⟨file, hfile, hepisodes⟩ := Raise.exists_of_mem_mapM hread hone
  obtain ⟨inDir, hinDir, hfile⟩ := List.mem_flatten.mp hfile
  obtain ⟨dir, hdir, hlisted⟩ := Raise.exists_of_mem_mapM hfound hinDir
  refine ⟨root, hroot, dir, hdir, inDir, ?_, file, hfile, fileEpisodes_spec hepisodes he⟩
  simp only [seasonDirFiles, Raise.bind_ok_iff] at hlisted
  obtain ⟨there, -, hlisted⟩ := hlisted
  split_ifs at hlisted with hthere
  · exact hlisted
  · obtain rfl : [] = inDir := by simpa using hlisted
    simp at hfile

/-- What the file scan does not report missing lies in the library as a file. -/
theorem inFiles_of_scanMissing {missing : List ℕ} (hseason : season ≠ 0)
    (h : env.scanMissing w m season total = .ok missing) (he : e ∈ List.range' 1 total)
    (hmissing : e ∉ missing) : env.InFiles w m season e := by
  have htotal : total ≠ 0 := by
    rintro rfl
    simp at he
  rw [scanMissing, if_neg (by simp [hseason, htotal])] at h
  simp only [Raise.bind_ok_iff, Raise.pure_ok_iff] at h
  obtain ⟨found, hfound, rfl⟩ := h
  have hmem : e ∈ found.flatten := by
    by_contra hnot
    exact hmissing (List.mem_filter.mpr ⟨he, by simpa using hnot⟩)
  obtain ⟨episodes, hepisodes, he⟩ := List.mem_flatten.mp hmem
  obtain ⟨root, hroot, hread⟩ := Raise.exists_of_mem_mapM hfound hepisodes
  exact inFiles_of_rootEpisodes hroot hread he

/-- **What is not reported missing is there**: an episode of a proper season that is not
reported missing is in the library. -/
theorem inLibrary_of_not_missing {missing : List ℕ} (hseason : season ≠ 0)
    (h : env.missingEpisodes w m season total = .ok missing) (he : e ∈ List.range' 1 total)
    (hmissing : e ∉ missing) : env.InLibrary w m season e := by
  have htotal : total ≠ 0 := by
    rintro rfl
    simp at he
  rw [missingEpisodes, if_pos ⟨hseason, htotal⟩] at h
  split at h
  · rename_i first rest hnamed
    obtain rfl := Except.ok.inj h
    have hmem : e ∈ first :: rest := by
      by_contra hnot
      exact hmissing (List.mem_filter.mpr ⟨he, by simpa using hnot⟩)
    exact .inl (inHistory_of_transferred hnamed hmem)
  · exact .inr (inFiles_of_scanMissing hseason h he hmissing)

/-- Nothing is ever reported missing of the season of the specials. -/
theorem missingEpisodes_zero : env.missingEpisodes w m 0 total = .ok [] := by
  simp [missingEpisodes, scanMissing]

end CheckEnv

end WolfNas
