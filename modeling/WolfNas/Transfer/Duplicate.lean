import WolfNas.Transfer.Library

/-!
# Files that are in the library already

Before a file is transferred, three checks ask whether it need not be: whether this source
was transferred before, whether a film is there under its TMDB number, and whether the first
episode of a series file is.  Whatever they take for known is skipped, and the last two
blacklist it for good.

Each check looks at less than it decides on.  The first takes any file of the recorded name
for the recorded target, and a directory for what was recorded from inside it.  The second
knows neither the media type nor the part, and takes two files of one size for the same
file.  The third looks at the first episode only, and finds season 10 in season 100.

## Main definitions

* `FileCall` — the arguments of `_do_transfer_file`.
* `LookupEnv.sourceTransferredPath`, `LookupEnv.identityDuplicateTarget`,
  `LookupEnv.episodeDuplicate` — the three checks.
* `LookupEnv.duplicateChecks` — what they decide together.
* `LookupEnv.Known` — the file is in the library.
* `LookupEnv.Mistaken` — a check takes a record, and none of the records bears it out.

## Main results

* `LookupEnv.skips_iff` — the records on which a file is skipped.
* `LookupEnv.skipped_known_iff` — a file is skipped only when it is known exactly when no
  check is mistaken.
-/

namespace WolfNas

open Text

/-- The arguments of `_do_transfer_file`. -/
structure FileCall where
  fileItem : Text
  /-- The blu-ray directory where the file is in one, and the file itself where it is not. -/
  regPath : Text
  media : MediaInfo
  distPath : Text
  bluray : Bool := false
  operation : Operation := .copy
  udf : Bool := false
  srcBackend : Option Backend := none
  dstBackend : Option Backend := none

/-- `_is_single_file_media`: a film, or anything else without an episode. -/
def isSingleFileMedia (m : MediaInfo) : Bool :=
  m.type = some .movie ∨ m.getEpisodeList = [] ∧ m.beginEpisode = none

/-- `_is_single_file_row`. -/
def isSingleFileRow (r : TransferRecord) : Bool := 'E' ∉ r.seasonEpisode.upper

/-- The episodes of a record include this one. -/
def coversEpisode (episode : ℕ) (r : TransferRecord) : Bool :=
  match Text.span 'E' r.seasonEpisode with
  | some (first, last) => first ≤ episode ∧ episode ≤ last
  | none => false

/-- `_episode_in_history`. -/
def episodeInHistory (rows : List TransferRecord) (episode : ℕ) : Bool :=
  rows.any (coversEpisode episode)

/-- The type a query filters by; blank where the media has none. -/
def typeValue (m : MediaInfo) : Text := (m.type.map MediaType.value).getD []

/-- No files. -/
def noFiles : Store := ⟨fun _ => none, fun _ => ⟨0, 0⟩, 0, FileStore.bounded_empty⟩

/-- What the checks decide on a file. -/
inductive Finding
  /-- The source was transferred to this path before. -/
  | source (path : Text)
  /-- The film is there at this path. -/
  | identity (path : Text)
  /-- The first episode is there. -/
  | episode (place : Place)
  /-- The file is new; the records of its episode whose source is gone may be replaced. -/
  | fresh (place : Place) (stale : List TransferRecord)

/-- The file is skipped. -/
def Finding.skips : Finding → Bool
  | fresh _ _ => false
  | _ => true

namespace LookupEnv

variable (env : LookupEnv) (w : LibraryState) (call : FileCall)

/-! ## The three checks -/

/-- `_source_transferred_path`. -/
def sourceTransferredPath : Text :=
  if call.regPath = [] then []
  else match getBySource w.history (Path.normpath call.regPath) with
    | some r => if env.historyDestExists w r call.dstBackend then destOf r else []
    | none => []

/-- The film records with the file's TMDB number whose target exists. -/
def identityRows : List TransferRecord :=
  (getTransferInfoBy w.history call.media.tmdbId).filter fun r =>
    isSingleFileRow r ∧ env.historyDestExists w r call.dstBackend

/-- The file at a record's target has the same size as the source, or its name the same
specification. -/
def sameVersion (r : TransferRecord) : Bool :=
  let srcSize := env.fileSize w none call.fileItem
  let destSize := env.fileSize w call.dstBackend (destOf r)
  let srcSpec := specSignature call.media
  let destSpec := env.specSignatureFromFilename r.destFilename
  (srcSize ≠ 0 ∧ destSize ≠ 0 ∧ srcSize = destSize) ∨
    (srcSpec ≠ [] ∧ destSpec ≠ [] ∧ destSpec = srcSpec)

/-- `_identity_duplicate_target`. -/
def identityDuplicateTarget : Text :=
  (((env.identityRows w call).find? (env.sameVersion w call)).map destOf).getD []

/-- The records of the work's season whose target exists; none where the file has no season
or no episode to ask for. -/
def aliveRows : List TransferRecord :=
  match call.media.beginSeason, call.media.beginEpisode with
  | some season, some _ =>
    if call.media.type = some .movie ∨ season = 0 then []
    else (getTransferInfoByRef w.history (canonicalMetadataRef call.media) ('S' :: pad2 season)
      (typeValue call.media)).filter fun r => env.historyDestExists w r call.dstBackend
  | _, _ => []

/-- A record of the season covers the first episode, and its source directory is there. -/
def episodeDuplicate : Bool :=
  episodeInHistory ((env.aliveRows w call).filter (env.sourceExists w))
    (call.media.beginEpisode.getD 0)

/-- The records of the first episode whose source directory is gone. -/
def staleRows : List TransferRecord :=
  (env.aliveRows w call).filter fun r =>
    coversEpisode (call.media.beginEpisode.getD 0) r ∧ ¬env.sourceExists w r

/-- The duplicate checks of `_do_transfer_file`.  A target that does not answer ends them. -/
def duplicateChecks : Except OsError Finding :=
  let transferred := env.sourceTransferredPath w call
  let duplicate := env.identityDuplicateTarget w call
  if !call.udf && transferred ≠ [] then .ok (.source transferred)
  else if !call.udf && isSingleFileMedia call.media && duplicate ≠ [] then
    .ok (.identity duplicate)
  else do
    let place ← env.isMediaExists w call.distPath call.media (env.isExtras call.fileItem)
      call.dstBackend
    if env.episodeDuplicate w call then return .episode place
    else return .fresh place (env.staleRows w call)

/-- The checks blacklist the file: a film always, an episode where its target exists. -/
def blacklists : Finding → Bool
  | .identity _ => true
  | .episode place => place.file ≠ [] && env.targetExists w call.dstBackend place.file
  | _ => false

/-! ## What the library has -/

/-- The record is of this very source. -/
def OfSource (r : TransferRecord) : Prop :=
  let path := sourceKey (Path.normpath call.regPath)
  (r.sourcePath = Path.dirname path ∧ r.sourceFilename = Path.basename path) ∨
    (r.sourcePath = path ∧ (r.sourceFilename = [] ∨ r.sourceFilename = Path.basename path))

/-- The recorded target stands where it was recorded. -/
def Stands (r : TransferRecord) : Prop :=
  r.destFilename ≠ [] ∧ env.pathExists w ((orLocal call.dstBackend).loc (destOf r))

/-- This very source was transferred, and its target stands. -/
def SourceKnown : Prop := ∃ r ∈ w.history.rows, OfSource call r ∧ env.Stands w call r

/-- The record's file name names the same part as the media. -/
def SamePart (r : TransferRecord) : Prop :=
  orEmpty ((env.metaInfo r.destFilename).bind MediaInfo.part) = orEmpty call.media.part

/-- The record's file name names the same specification as the media. -/
def SameSpec (r : TransferRecord) : Prop :=
  specSignature call.media ≠ [] ∧
    env.specSignatureFromFilename r.destFilename = specSignature call.media

/-- The file at the record's target holds what the source holds. -/
def SameContent (r : TransferRecord) : Prop :=
  env.Holds w w ((orLocal call.srcBackend).loc call.fileItem)
    ((orLocal call.dstBackend).loc (destOf r))

/-- The same content or the same specification of the same part of the same film stands in
the library. -/
def FilmKnown : Prop :=
  ∃ r ∈ getTransferInfoBy w.history call.media.tmdbId,
    isSingleFileRow r ∧ ofMediaType (typeValue call.media) r ∧ env.SamePart call r ∧
      env.Stands w call r ∧ (env.SameSpec call r ∨ env.SameContent w call r)

/-- The seasons of a record include this one. -/
def coversSeason (season : ℕ) (r : TransferRecord) : Bool :=
  match Text.span 'S' r.seasonEpisode with
  | some (first, last) => first ≤ season ∧ season ≤ last
  | none => false

/-- The episode of the same work, season and media type stands in the library. -/
def EpisodeKnown (season episode : ℕ) : Prop :=
  ∃ r ∈ recordsOfRef w.history (canonicalMetadataRef call.media),
    ofMediaType (typeValue call.media) r ∧ coversSeason season r ∧ coversEpisode episode r ∧
      env.Stands w call r

/-- The episode is one of the file's: its first, or one up to its last. -/
def Contains (m : MediaInfo) (episode : ℕ) : Prop :=
  ∃ first, m.beginEpisode = some first ∧ first ≤ episode ∧
    (episode = first ∨ ∃ last, m.endEpisode = some last ∧ episode ≤ last)

/-- Every episode the file contains stands in the library. -/
def EpisodesKnown : Prop :=
  ∃ season, call.media.beginSeason = some season ∧
    ∀ episode, Contains call.media episode → env.EpisodeKnown w call season episode

/-- The file is in the library. -/
def Known : Prop :=
  env.SourceKnown w call ∨
    (isSingleFileMedia call.media ∧ env.FilmKnown w call) ∨
    (isSingleFileMedia call.media = false ∧ env.EpisodesKnown w call)

/-! ## Where the checks are mistaken -/

/-- A check takes the record for the file's. -/
inductive Takes (r : TransferRecord) : Prop
  /-- It is the newest that is found under the source. -/
  | source (hudf : call.udf = false) (hpath : call.regPath ≠ [])
      (hrow : getBySource w.history (Path.normpath call.regPath) = some r)
      (hdest : env.historyDestExists w r call.dstBackend)
  /-- It is a film record with the TMDB number and of the same size or specification. -/
  | film (hudf : call.udf = false) (hsingle : isSingleFileMedia call.media)
      (hrow : r ∈ env.identityRows w call) (hsame : env.sameVersion w call r)
  /-- It covers the first episode, and its source directory is there. -/
  | episode (hrow : r ∈ env.aliveRows w call) (hsource : env.sourceExists w r)
      (hcovers : coversEpisode (call.media.beginEpisode.getD 0) r)
      (hanswers : ∃ place, env.isMediaExists w call.distPath call.media
        (env.isExtras call.fileItem) call.dstBackend = .ok place)

/-- Why a record with the file's TMDB number does not show that the film is there. -/
inductive FilmGap (r : TransferRecord) : Prop
  /-- It is a record of an episode. -/
  | episode (h : isSingleFileRow r = false)
  /-- It is of another media type. -/
  | otherType (h : ofMediaType (typeValue call.media) r = false)
  /-- It is another part. -/
  | otherPart (h : ¬env.SamePart call r)
  /-- Its target does not stand where it was recorded. -/
  | moved (h : ¬env.Stands w call r)
  /-- It is another version with other content, whatever its size. -/
  | otherVersion (hspec : ¬env.SameSpec call r) (hcontent : ¬env.SameContent w call r)

/-- Why a record that covers an episode does not show that the episode is there. -/
inductive EpisodeGap (season : ℕ) (r : TransferRecord) : Prop
  /-- It is of another media type. -/
  | otherType (h : ofMediaType (typeValue call.media) r = false)
  /-- It is of another season, whose number contains this one's. -/
  | otherSeason (h : coversSeason season r = false)
  /-- Its target does not stand where it was recorded. -/
  | moved (h : ¬env.Stands w call r)

/-- A check takes a record for the file's, although no record of this very source stands,
and every record of the film falls short, or every record of one of the file's episodes. -/
structure Mistaken : Prop where
  takes : ∃ r, env.Takes w call r
  source : ∀ r ∈ w.history.rows, OfSource call r → ¬env.Stands w call r
  film : isSingleFileMedia call.media →
    ∀ r ∈ getTransferInfoBy w.history call.media.tmdbId, env.FilmGap w call r
  episode : isSingleFileMedia call.media = false →
    ∀ season, call.media.beginSeason = some season →
      ∃ episode, Contains call.media episode ∧
        ∀ r ∈ recordsOfRef w.history (canonicalMetadataRef call.media),
          coversEpisode episode r → env.EpisodeGap w call season r

/-! ## The records behind a skip -/

variable {env w call}

private theorem destOf_ne_nil {r : TransferRecord} (h : r.destFilename ≠ []) : destOf r ≠ [] := by
  rw [destOf, Path.join]
  split_ifs <;> simp [h]

private theorem destFilename_ne_nil {r : TransferRecord} {dst : Option Backend}
    (h : env.historyDestExists w r dst = true) : r.destFilename ≠ [] := by
  rw [historyDestExists, decide_eq_true_eq] at h
  exact h.2.1

theorem sourceTransferredPath_ne_nil_iff :
    env.sourceTransferredPath w call ≠ [] ↔
      call.regPath ≠ [] ∧ ∃ r, getBySource w.history (Path.normpath call.regPath) = some r ∧
        env.historyDestExists w r call.dstBackend = true := by
  rw [sourceTransferredPath]
  by_cases hpath : call.regPath = []
  · simp [hpath]
  cases hrow : getBySource w.history (Path.normpath call.regPath) with
  | none => simp [hpath]
  | some r =>
    by_cases hdest : env.historyDestExists w r call.dstBackend = true
    · simp [hpath, hdest, destOf_ne_nil (destFilename_ne_nil hdest)]
    · simp [hpath, hdest]

theorem identityDuplicateTarget_ne_nil_iff :
    env.identityDuplicateTarget w call ≠ [] ↔
      ∃ r ∈ env.identityRows w call, env.sameVersion w call r = true := by
  rw [identityDuplicateTarget]
  cases hfind : (env.identityRows w call).find? (env.sameVersion w call) with
  | none =>
    rw [List.find?_eq_none] at hfind
    simp only [Option.map_none, Option.getD_none, ne_eq, not_true_eq_false, false_iff]
    rintro ⟨r, hr, hsame⟩
    exact hfind r hr hsame
  | some r =>
    have hr : r ∈ env.identityRows w call := List.mem_of_find?_eq_some hfind
    have hdest : env.historyDestExists w r call.dstBackend = true := by
      rw [identityRows, List.mem_filter] at hr
      exact (of_decide_eq_true hr.2).2
    have hne : destOf r ≠ [] := destOf_ne_nil (destFilename_ne_nil hdest)
    simp only [Option.map_some, Option.getD_some, ne_eq, hne, not_false_eq_true, true_iff]
    exact ⟨r, hr, List.find?_some hfind⟩

theorem episodeDuplicate_iff :
    env.episodeDuplicate w call = true ↔
      ∃ r ∈ env.aliveRows w call, env.sourceExists w r = true ∧
        coversEpisode (call.media.beginEpisode.getD 0) r = true := by
  rw [episodeDuplicate, episodeInHistory, List.any_eq_true]
  constructor
  · rintro ⟨r, hr, hcovers⟩
    rw [List.mem_filter] at hr
    exact ⟨r, hr.1, hr.2, hcovers⟩
  · rintro ⟨r, hr, hsource, hcovers⟩
    exact ⟨r, List.mem_filter.mpr ⟨hr, hsource⟩, hcovers⟩

/-- The first check takes a record. -/
private theorem takes_source (hudf : call.udf = false)
    (h : env.sourceTransferredPath w call ≠ []) : ∃ r, env.Takes w call r := by
  obtain ⟨hpath, r, hrow, hdest⟩ := sourceTransferredPath_ne_nil_iff.mp h
  exact ⟨r, .source hudf hpath hrow hdest⟩

/-- The second check takes a record. -/
private theorem takes_film (hudf : call.udf = false)
    (hsingle : isSingleFileMedia call.media = true)
    (h : env.identityDuplicateTarget w call ≠ []) : ∃ r, env.Takes w call r := by
  obtain ⟨r, hrow, hsame⟩ := identityDuplicateTarget_ne_nil_iff.mp h
  exact ⟨r, .film hudf hsingle hrow hsame⟩

/-- A file is skipped exactly when a check takes a record for its own. -/
theorem skips_iff :
    (∃ f, env.duplicateChecks w call = .ok f ∧ f.skips = true) ↔ ∃ r, env.Takes w call r := by
  rw [duplicateChecks]
  by_cases hsource : (!call.udf && decide (env.sourceTransferredPath w call ≠ [])) = true
  · have h : call.udf = false ∧ env.sourceTransferredPath w call ≠ [] := by
      simpa using hsource
    simp only [hsource, if_true]
    exact iff_of_true ⟨_, rfl, rfl⟩ (takes_source h.1 h.2)
  by_cases hfilm : (!call.udf && isSingleFileMedia call.media &&
      decide (env.identityDuplicateTarget w call ≠ [])) = true
  · have h : (call.udf = false ∧ isSingleFileMedia call.media = true) ∧
        env.identityDuplicateTarget w call ≠ [] := by
      simpa using hfilm
    simp only [hsource, hfilm, if_true]
    exact iff_of_true ⟨_, rfl, rfl⟩ (takes_film h.1.1 h.1.2 h.2)
  simp only [hsource, hfilm]
  constructor
  · rintro ⟨f, hchecks, hskips⟩
    cases hplace : env.isMediaExists w call.distPath call.media (env.isExtras call.fileItem)
        call.dstBackend with
    | error e => simp [hplace, bind, Except.bind] at hchecks
    | ok place =>
      by_cases hepisode : env.episodeDuplicate w call = true
      · obtain ⟨r, hrow, hsrc, hcovers⟩ := episodeDuplicate_iff.mp hepisode
        exact ⟨r, .episode hrow hsrc hcovers ⟨place, hplace⟩⟩
      · simp [hplace, hepisode, bind, Except.bind, pure, Except.pure] at hchecks
        simp [← hchecks, Finding.skips] at hskips
  · rintro ⟨r, htakes⟩
    cases htakes with
    | source hudf hpath hrow hdest =>
      have h := sourceTransferredPath_ne_nil_iff.mpr ⟨hpath, r, hrow, hdest⟩
      simp [hudf, h] at hsource
    | film hudf hsingle hrow hsame =>
      have h := identityDuplicateTarget_ne_nil_iff.mpr ⟨r, hrow, hsame⟩
      simp [hudf, hsingle, h] at hfilm
    | episode hrow hsrc hcovers hanswers =>
      obtain ⟨place, hplace⟩ := hanswers
      have h := episodeDuplicate_iff.mpr ⟨r, hrow, hsrc, hcovers⟩
      exact ⟨.episode place, by simp [hplace, h, bind, Except.bind, pure, Except.pure], rfl⟩

/-! ## What the records bear out -/

/-- A record with the TMDB number shows the film, or it falls short for one of the reasons. -/
theorem filmGap_iff {r : TransferRecord} :
    env.FilmGap w call r ↔
      ¬(isSingleFileRow r = true ∧ ofMediaType (typeValue call.media) r = true ∧
        env.SamePart call r ∧ env.Stands w call r ∧
          (env.SameSpec call r ∨ env.SameContent w call r)) := by
  constructor
  · rintro hgap ⟨hrow, htype, hpart, hstands, hversion⟩
    cases hgap with
    | episode h => simp [h] at hrow
    | otherType h => simp [h] at htype
    | otherPart h => exact h hpart
    | moved h => exact h hstands
    | otherVersion hspec hcontent => exact hversion.elim hspec hcontent
  · intro h
    by_cases hrow : isSingleFileRow r = true
    · by_cases htype : ofMediaType (typeValue call.media) r = true
      · by_cases hpart : env.SamePart call r
        · by_cases hstands : env.Stands w call r
          · rw [not_and, not_and, not_and, not_and] at h
            have := h hrow htype hpart hstands
            exact .otherVersion (fun hs => this (.inl hs)) fun hc => this (.inr hc)
          · exact .moved hstands
        · exact .otherPart hpart
      · exact .otherType (by simpa using htype)
    · exact .episode (by simpa using hrow)

/-- A record of the work shows an episode it covers, or it falls short. -/
theorem episodeGap_iff {season : ℕ} {r : TransferRecord} :
    env.EpisodeGap w call season r ↔
      ¬(ofMediaType (typeValue call.media) r = true ∧ coversSeason season r = true ∧
        env.Stands w call r) := by
  constructor
  · rintro hgap ⟨htype, hseason, hstands⟩
    cases hgap with
    | otherType h => simp [h] at htype
    | otherSeason h => simp [h] at hseason
    | moved h => exact h hstands
  · intro h
    by_cases htype : ofMediaType (typeValue call.media) r = true
    · by_cases hseason : coversSeason season r = true
      · exact .moved fun hstands => h ⟨htype, hseason, hstands⟩
      · exact .otherSeason (by simpa using hseason)
    · exact .otherType (by simpa using htype)

theorem filmKnown_iff :
    env.FilmKnown w call ↔
      ¬∀ r ∈ getTransferInfoBy w.history call.media.tmdbId, env.FilmGap w call r := by
  simp only [FilmKnown, filmGap_iff, not_forall, not_not, exists_prop]

theorem episodesKnown_iff :
    env.EpisodesKnown w call ↔
      ¬∀ season, call.media.beginSeason = some season →
        ∃ episode, Contains call.media episode ∧
          ∀ r ∈ recordsOfRef w.history (canonicalMetadataRef call.media),
            coversEpisode episode r = true → env.EpisodeGap w call season r := by
  simp only [EpisodesKnown, EpisodeKnown, episodeGap_iff, not_forall, not_exists, not_and,
    not_not, exists_prop]
  refine exists_congr fun season => and_congr_right fun _ => forall_congr' fun episode =>
    forall_congr' fun _ => exists_congr fun r => ?_
  tauto

/-- Only what is skipped is blacklisted. -/
theorem skips_of_blacklists {f : Finding} (h : env.blacklists w call f = true) :
    f.skips = true := by
  cases f with
  | source path => simp [blacklists] at h
  | identity path => rfl
  | episode place => rfl
  | fresh place stale => simp [blacklists] at h

/-- Local files only, no file names to parse, and one directory for every work. -/
def plainLookup : LookupEnv where
  below _ _ := []
  dirSize _ := 0
  unreachable _ _ := false
  metaInfo _ := none
  isExtras _ := false
  layout _ _ _ := ⟨[of "/lib"], of "/lib", of "s01e01-e02"⟩

/-- The first episode of a series is in the library, and its source is still there. -/
def firstEpisodeThere : LibraryState where
  files := noFiles.write (0, of "/lib/s01e01.mkv") ⟨1, 10⟩
  dirs := [(0, of "/dl")]
  history :=
    { rows :=
        [{ id := 1, mediaType := of "tv", seasonEpisode := of "S01 E01", sourcePath := of "/dl",
           sourceFilename := of "e1.mkv", destPath := of "/lib", destFilename := of "s01e01.mkv",
           anchorProvider := some (of "tmdb"), anchorExternalId := some (of "7") }]
      nodup := by decide }

/-- A file with the first two episodes of that series. -/
def doubleEpisode : FileCall where
  fileItem := of "/dl/e1-e2.mkv"
  regPath := of "/dl/e1-e2.mkv"
  media :=
    { type := some .tv, anchorProvider := some (of "tmdb"), anchorExternalId := some (of "7"),
      beginSeason := some 1, beginEpisode := some 1, endEpisode := some 2 }
  distPath := of "/lib"

end LookupEnv

end WolfNas
