import WolfNas.Subscribe.DownloadGuard
import WolfNas.Subscribe.Siblings
import WolfNas.Subscribe.SubscribeHistory

/-!
# Finishing a subscription at once and after the transfer

A subscription that has all it asked for is finished at once, by the item that was found, or
after the transfer, by its own row alone.  Either way it is put into the history and deleted, with
its siblings if it is one to a series, and completed downloads of the work are forgotten so that
a better edition may be loaded.  The two ways rebuild the poster, the description and the season
from different sources.

## Main definitions

* `FinishRow`, `FinishMedia`, `FinishState` — what the completion reads and writes.
* `FinishState.finishRssSubscribe` — at once.
* `FinishState.finalizeTvByRssid`, `FinishState.finalizeMovieByRssid` — after the transfer.
* `FinishCall.FinishedAlike`, `FinishCall.OnlySeason` — what is claimed of the two ways.
* `FinishCall.Matches` — the condition on the row, the item and the tables.

## Main results

* `FinishCall.finishedAlike_iff` — when both ways leave the same tables and forget the downloads
  of the season only.
-/

namespace WolfNas

open Text
open DownloadGuard (DownloadHistoryRow)

/-! ## The rows -/

/-- A row of the movie or of the TV table, with the columns that the completion reads. -/
structure FinishRow extends SubscribeRow where
  userId : Option ℕ := none
  image : Option Text := none
  description : Option Text := none
  totalEp : ℕ := 0
  /-- The column of the content profile is null. -/
  noProfile : Bool := false
  metadataPolicy : Option Text := none
  namingProfile : Option Text := none
  deriving DecidableEq, Repr

/-- The item that was found, with its pictures and its description. -/
structure FinishMedia extends MediaInfo where
  posterPath : Text := []
  fanartPoster : Text := []
  overview : Option Text := none

/-- The tables that a completion writes. -/
structure FinishState where
  movies : List FinishRow
  tvs : List FinishRow
  episodes : List SubscribeTvEpisodes := []
  torrents : List SubscribeTorrents := []
  history : List HistoryRow := []
  downloads : List DownloadHistoryRow := []
  deriving DecidableEq

namespace FinishRow

variable (row : FinishRow)

/-- The column of the content profile. -/
def profile : Option Text := if row.noProfile then none else some row.contentProfile

/-- `row.TMDBID if _row_ref(row).startswith("tmdb:") else ""`. -/
def tmdbColumn : Option Text :=
  if (rowRef row.toSubscribeRow).startsWith (of "tmdb:") then row.tmdbId else some []

/-- What the history is told of a movie subscription. -/
def movieSubject : HistorySubject where
  rssid := row.id
  name := row.name
  year := row.year
  tmdbid := row.tmdbColumn
  userId := row.userId
  anchorProvider := row.anchorProvider
  anchorExternalId := row.anchorExternalId
  identityId := row.identityId
  provider := row.provider
  metadataRef := row.metadataRef
  metadataPolicy := row.metadataPolicy
  namingProfile := row.namingProfile

/-- What the history is told of a TV subscription. -/
def tvSubject : HistorySubject :=
  { row.movieSubject with
    season := row.season
    total := if row.total ≠ 0 then row.total else row.totalEp
    start := row.currentEp }

end FinishRow

/-- `MediaTypeMapper.to_tmdb`. -/
def toTmdb : Option MediaType → Text
  | some .movie => of "movie"
  | some .tv | some .anime => of "tv"
  | some .unknown | none => []

/-! ## Deleting the subscription -/

namespace FinishState

/-- `delete_rss_movie`, by the number of the subscription. -/
def deleteRssMovie (rssid : ℕ) (st : FinishState) : FinishState :=
  match st.movies.find? fun row => row.id = rssid with
  | none => st
  | some movie =>
    { st with
      movies := st.movies.filter fun row => row.id ≠ rssid
      torrents := st.torrents.filter fun t =>
        ¬(movie.name ≠ [] ∧ t.title = movie.name ∧ t.year = movie.year) }

/-- `delete_rss_tv`, by the number of the subscription. -/
def deleteRssTv (rssid : ℕ) (st : FinishState) : FinishState :=
  match st.tvs.find? fun row => row.id = rssid with
  | none => st
  | some tv =>
    { st with
      tvs := st.tvs.filter fun row => row.id ≠ rssid
      episodes := st.episodes.filter fun e => e.rssid ≠ rssid
      torrents := st.torrents.filter fun t =>
        ¬(tv.name ≠ [] ∧ t.title = tv.name ∧ t.year = tv.year ∧ t.season = tv.season) }

/-- `_finish_sibling_tvs`. -/
def finishSiblingTvs (primary : FinishRow) (st : FinishState) : FinishState :=
  (finishSiblings (st.tvs.map FinishRow.toSubscribeRow) primary.toSubscribeRow).foldl
    (fun st row => st.deleteRssTv row.id) st

end FinishState

/-! ## Forgetting downloads -/

namespace DownloadGuard.DownloadHistoryRow

/-- The season in front of the episodes. -/
def season (r : DownloadHistoryRow) : Text := (orEmpty r.se).takeWhile (· ≠ ' ')

/-- The text of the row begins with that of a season, where there is one. -/
def beginsWith (season : Text) (r : DownloadHistoryRow) : Bool :=
  season.isEmpty || r.se.any fun se => Text.startsWith se season

/-- The rows that `delete_download_history_by_identity` asks for, of any season. -/
def hasIdentity (identityId provider externalId : Text) (r : DownloadHistoryRow) : Bool :=
  r.state = of "completed" ∧
    if identityId.strip ≠ [] then r.identityId = some identityId.strip
    else provider.strip ≠ [] ∧ externalId.strip ≠ [] ∧
      r.anchorProvider = some provider.strip ∧ r.anchorExternalId = some externalId.strip

/-- The rows that `delete_download_history_by_tmdb` asks for, of any season.  A number that is
none ends the call. -/
def hasTmdb (tmdbId : Text) (r : DownloadHistoryRow) : Bool :=
  r.state = of "completed" ∧ tmdbId.strip.isDigit ∧ (orEmpty r.tmdbId).isDigit ∧
    (orEmpty r.tmdbId).toNat = tmdbId.strip.toNat

/-- The completed downloads of the work of a subscription: those of its identity or of its
anchor, or else those of a TMDB number. -/
def ofWork (row : FinishRow) (tmdbId : Text) (r : DownloadHistoryRow) : Bool :=
  let identityId := orEmpty row.identityId
  let provider := orEmpty row.anchorProvider
  let externalId := orEmpty row.anchorExternalId
  if identityId ≠ [] ∨ provider ≠ [] ∧ externalId ≠ [] then
    r.hasIdentity identityId provider externalId
  else r.hasTmdb tmdbId

end DownloadGuard.DownloadHistoryRow

/-- The downloads that are left when those of a season of the work are forgotten. -/
def clearDownloads (row : FinishRow) (tmdbId season : Text) (downloads : List DownloadHistoryRow) :
    List DownloadHistoryRow :=
  downloads.filter fun r => ¬(r.ofWork row tmdbId ∧ r.beginsWith season)

/-! ## At once -/

namespace FinishMedia

/-- `get_poster_image`. -/
def getPosterImage (m : FinishMedia) : Text :=
  if m.posterPath ≠ [] then m.posterPath else m.fanartPoster

/-- The poster that is registered: the row lends its own to an item that has none. -/
def poster (m : FinishMedia) (row : FinishRow) : Text :=
  let image := orEmpty row.image
  let shown := if image ≠ [] ∧ m.posterPath = [] then { m with posterPath := image } else m
  if shown.getPosterImage ≠ [] then shown.getPosterImage else image

/-- What the history is told of the item. -/
def entry (m : FinishMedia) (row : FinishRow) : HistoryEntry where
  rtype := toTmdb m.type
  image := some (m.poster row)
  desc := m.overview
  contentProfile := row.profile

end FinishMedia

/-! ## After the transfer -/

namespace FinishRow

variable (row : FinishRow)

/-- The type that a TV subscription is finished with: the profile of the row makes an anime. -/
def resolvedType (mtype : Option MediaType) : MediaType :=
  if (orEmpty row.profile).strip = of "anime" then .anime else mtype.getD .tv

/-- The item that is rebuilt from the row of a TV subscription. -/
def tvMedia (mtype : Option MediaType) : MediaInfo where
  type := some (row.resolvedType mtype)
  tmdbId := .text (orEmpty row.tmdbColumn)
  beginSeason := if row.season.strip.isDigit then some row.season.strip.toNat else none

/-- What the history is told of a TV subscription after the transfer. -/
def tvEntry (mtype : Option MediaType) : HistoryEntry where
  rtype := toTmdb (some (row.resolvedType mtype))
  image := row.image
  desc := row.description
  contentProfile :=
    if row.resolvedType mtype = .anime ∧ (orEmpty row.profile).strip ∈ [[], of "default"] then
      some (of "anime")
    else row.profile

/-- What the history is told of a movie subscription after the transfer. -/
def movieEntry : HistoryEntry where
  rtype := toTmdb (some .movie)
  image := some (orEmpty row.image)
  desc := row.description
  contentProfile := row.profile

end FinishRow

/-! ## The completion -/

/-- A subscription that is finished: the item that was found for it, the type that the event of the
transfer names, the time, and whether another process is finishing it. -/
structure FinishCall where
  rssid : ℕ
  media : FinishMedia
  mtype : Option MediaType := none
  now : Text
  busy : Bool := false

namespace FinishState

variable (parseMediaRef : Text → Option MediaRef) (call : FinishCall) (st : FinishState)

/-- The history is written, the subscription deleted, and downloads are forgotten.  A history that
refuses the row ends the call. -/
def complete (subject : HistorySubject) (entry : HistoryEntry)
    (delete : FinishState → FinishState)
    (clear : List DownloadHistoryRow → List DownloadHistoryRow) : FinishState :=
  match subject.upsertRssHistory parseMediaRef call.now entry st.history with
  | none => st
  | some history =>
    let st := delete { st with history }
    { st with downloads := clear st.downloads }

/-- `finish_rss_subscribe`. -/
def finishRssSubscribe : FinishState :=
  let m := call.media
  if call.rssid = 0 then st
  else if m.type = some .movie then
    match st.movies.find? fun row => row.id = call.rssid with
    | none => st
    | some row =>
      st.complete parseMediaRef call row.movieSubject (m.entry row) (deleteRssMovie call.rssid)
        (clearDownloads row m.tmdbId.toText [])
  else
    match st.tvs.find? fun row => row.id = call.rssid with
    | none => st
    | some row =>
      st.complete parseMediaRef call row.tvSubject (m.entry row)
        (fun st => (st.deleteRssTv call.rssid).finishSiblingTvs row)
        fun downloads =>
          if row.overEdition then
            clearDownloads row m.tmdbId.toText m.getSeasonString downloads
          else downloads

/-- `finalize_tv_by_rssid`. -/
def finalizeTvByRssid : FinishState :=
  if call.rssid = 0 ∨ call.busy then st
  else
    match st.tvs.find? fun row => row.id = call.rssid with
    | none => st
    | some row =>
      let m := row.tvMedia call.mtype
      st.complete parseMediaRef call row.tvSubject (row.tvEntry call.mtype)
        (fun st => (st.deleteRssTv call.rssid).finishSiblingTvs row)
        fun downloads =>
          if row.overEdition then
            clearDownloads row m.tmdbId.toText m.getSeasonString downloads
          else downloads

/-- `finalize_movie_by_rssid`. -/
def finalizeMovieByRssid : FinishState :=
  if call.rssid = 0 ∨ call.busy then st
  else
    match st.movies.find? fun row => row.id = call.rssid with
    | none => st
    | some row =>
      st.complete parseMediaRef call row.movieSubject row.movieEntry (deleteRssMovie call.rssid)
        fun downloads =>
          if row.overEdition then clearDownloads row (orEmpty row.tmdbId) [] downloads
          else downloads

/-- The way after the transfer, for the table that the item belongs to. -/
def finalizeByRssid : FinishState :=
  if call.media.type = some .movie then st.finalizeMovieByRssid parseMediaRef call
  else st.finalizeTvByRssid parseMediaRef call

end FinishState

/-! ## The two ways side by side -/

namespace FinishCall

variable (parseMediaRef : Text → Option MediaRef) (call : FinishCall) (st : FinishState)
  (row : FinishRow)

/-- The item is a film. -/
def IsFilm : Prop := call.media.type = some .movie

instance : Decidable call.IsFilm := inferInstanceAs (Decidable (_ = _))

/-- The row of the subscription, in the table that the item belongs to. -/
def row? : Option FinishRow :=
  if call.rssid = 0 then none
  else if call.IsFilm then st.movies.find? fun row => row.id = call.rssid
  else st.tvs.find? fun row => row.id = call.rssid

/-- What the history is told of the subscription. -/
def subject : HistorySubject := if call.IsFilm then row.movieSubject else row.tvSubject

/-- What the history is told after the transfer. -/
def laterEntry : HistoryEntry := if call.IsFilm then row.movieEntry else row.tvEntry call.mtype

/-- The subscription is deleted, with its siblings. -/
def delete : FinishState :=
  if call.IsFilm then st.deleteRssMovie call.rssid
  else (st.deleteRssTv call.rssid).finishSiblingTvs row

/-- The downloads that are forgotten at once: of a film whatever the subscription asks for. -/
def forgets (r : DownloadHistoryRow) : Bool :=
  r.ofWork row call.media.tmdbId.toText ∧
    (call.IsFilm ∨ row.overEdition ∧ r.beginsWith call.media.getSeasonString)

/-- The downloads that are forgotten after the transfer. -/
def forgetsLater (r : DownloadHistoryRow) : Bool :=
  row.overEdition ∧
    if call.IsFilm then r.ofWork row (orEmpty row.tmdbId)
    else
      r.ofWork row (row.tvMedia call.mtype).tmdbId.toText ∧
        r.beginsWith (row.tvMedia call.mtype).getSeasonString

/-- Both ways leave the same tables. -/
def FinishedAlike : Prop :=
  st.finishRssSubscribe parseMediaRef call = st.finalizeByRssid parseMediaRef call

/-- Of a series, neither way forgets a download of a season that is not the subscription's. -/
def OnlySeason : Prop :=
  ¬call.IsFilm → ∀ row ∈ call.row? st, ∀ r ∈ st.downloads,
    r ∉ (st.finishRssSubscribe parseMediaRef call).downloads ∨
        r ∉ (st.finalizeByRssid parseMediaRef call).downloads →
      seasonMatches row.season r.season

/-- The condition on a completed download.  Of a film, it belongs to the work by the item just
where the subscription asks for better editions and it belongs to it by the row.  Of a series
whose subscription asks for better editions, the season of the item and that of the row pick it
out together, and if they do it is of the season.  The row's season is read where it is written in
digits, and as the first one otherwise. -/
def MatchesDownload (r : DownloadHistoryRow) : Prop :=
  if call.IsFilm then
    r.ofWork row call.media.tmdbId.toText ↔
      row.overEdition ∧ r.ofWork row (orEmpty row.tmdbId)
  else row.overEdition →
    (r.ofWork row call.media.tmdbId.toText ∧ r.beginsWith call.media.getSeasonString ↔
      r.ofWork row (row.tvMedia call.mtype).tmdbId.toText ∧
        r.beginsWith (row.tvMedia call.mtype).getSeasonString) ∧
    (r.ofWork row call.media.tmdbId.toText ∧ r.beginsWith call.media.getSeasonString →
      seasonMatches row.season r.season)

/-- The condition on the subscription.  Either the history accepts neither entry, or no other
process is finishing the subscription, the history has a row of it or the two entries agree, and
the downloads match. -/
def Matches : Prop :=
  let subject := call.subject row
  let entry := call.media.entry row
  let later := call.laterEntry row
  (subject.Refused entry st.history ∧ (call.busy ∨ subject.Refused later st.history)) ∨
    (¬call.busy ∧
      (subject.Recorded st.history ∨
        ¬subject.Refused entry st.history ∧
          subject.Agree parseMediaRef entry later st.history) ∧
      ∀ r ∈ st.downloads, call.MatchesDownload row r)

end FinishCall

/-! ## What a completion leaves -/

namespace FinishState

variable {parseMediaRef : Text → Option MediaRef} {call : FinishCall} {st : FinishState}

@[simp] theorem history_deleteRssMovie (rssid : ℕ) (st : FinishState) :
    (st.deleteRssMovie rssid).history = st.history := by
  unfold deleteRssMovie
  split <;> rfl

@[simp] theorem downloads_deleteRssMovie (rssid : ℕ) (st : FinishState) :
    (st.deleteRssMovie rssid).downloads = st.downloads := by
  unfold deleteRssMovie
  split <;> rfl

@[simp] theorem history_deleteRssTv (rssid : ℕ) (st : FinishState) :
    (st.deleteRssTv rssid).history = st.history := by
  unfold deleteRssTv
  split <;> rfl

@[simp] theorem downloads_deleteRssTv (rssid : ℕ) (st : FinishState) :
    (st.deleteRssTv rssid).downloads = st.downloads := by
  unfold deleteRssTv
  split <;> rfl

/-- What deleting one subscription to a series keeps, deleting the siblings keeps. -/
theorem finishSiblingTvs_induction {motive : FinishState → Prop} {st : FinishState}
    (primary : FinishRow) (hst : motive st)
    (hstep : ∀ st rssid, motive st → motive (st.deleteRssTv rssid)) :
    motive (st.finishSiblingTvs primary) := by
  unfold finishSiblingTvs
  generalize finishSiblings _ _ = siblings
  induction siblings generalizing st with
  | nil => exact hst
  | cons row siblings ih => exact ih (hstep st row.id hst)

@[simp] theorem history_finishSiblingTvs (primary : FinishRow) (st : FinishState) :
    (st.finishSiblingTvs primary).history = st.history :=
  finishSiblingTvs_induction (motive := fun st' => st'.history = st.history) primary rfl
    (fun st' rssid h => by simp [h])

@[simp] theorem downloads_finishSiblingTvs (primary : FinishRow) (st : FinishState) :
    (st.finishSiblingTvs primary).downloads = st.downloads :=
  finishSiblingTvs_induction (motive := fun st' => st'.downloads = st.downloads) primary rfl
    (fun st' rssid h => by simp [h])

/-- A deletion brings no row back. -/
theorem tvs_deleteRssTv_subset (rssid : ℕ) (st : FinishState) :
    (st.deleteRssTv rssid).tvs ⊆ st.tvs := by
  unfold deleteRssTv
  split
  · exact List.Subset.refl _
  · exact List.filter_subset_self _

/-- The row that is deleted is gone. -/
theorem id_ne_of_mem_deleteRssTv {rssid : ℕ} {st : FinishState} {row : FinishRow}
    (hrow : row ∈ (st.deleteRssTv rssid).tvs) : row.id ≠ rssid := by
  unfold deleteRssTv at hrow
  split at hrow
  · next hnone => simpa using List.find?_eq_none.mp hnone row hrow
  · simpa using (List.mem_filter.mp hrow).2

theorem id_ne_of_mem_deleteRssMovie {rssid : ℕ} {st : FinishState} {row : FinishRow}
    (hrow : row ∈ (st.deleteRssMovie rssid).movies) : row.id ≠ rssid := by
  unfold deleteRssMovie at hrow
  split at hrow
  · next hnone => simpa using List.find?_eq_none.mp hnone row hrow
  · simpa using (List.mem_filter.mp hrow).2

end FinishState

namespace FinishCall

variable {parseMediaRef : Text → Option MediaRef} {call : FinishCall} {st : FinishState}
  {row : FinishRow}

@[simp] theorem history_delete : (call.delete st row).history = st.history := by
  unfold delete
  split <;> simp

@[simp] theorem downloads_delete : (call.delete st row).downloads = st.downloads := by
  unfold delete
  split <;> simp

/-- A completed subscription has no row. -/
theorem row?_delete (downloads : List DownloadHistoryRow) :
    call.row? { call.delete st row with downloads := downloads } = none := by
  unfold row? delete
  by_cases hid : call.rssid = 0
  · simp [hid]
  by_cases hfilm : call.IsFilm
  · simp only [hid, hfilm, if_false, if_true, List.find?_eq_none, decide_eq_true_eq]
    intro r hr
    exact FinishState.id_ne_of_mem_deleteRssMovie hr
  · simp only [hid, hfilm, if_false, List.find?_eq_none, decide_eq_true_eq]
    intro r hr
    have hsub : ((st.deleteRssTv call.rssid).finishSiblingTvs row).tvs ⊆
        (st.deleteRssTv call.rssid).tvs :=
      FinishState.finishSiblingTvs_induction (motive := fun st' => st'.tvs ⊆ _) row
        (List.Subset.refl _)
        (fun st' rssid h => List.Subset.trans (FinishState.tvs_deleteRssTv_subset rssid st') h)
    exact FinishState.id_ne_of_mem_deleteRssTv (hsub hr)

/-- The tables that a completion leaves where the history takes the row. -/
def completed (call : FinishCall) (st : FinishState) (row : FinishRow) (history : List HistoryRow)
    (forgotten : DownloadHistoryRow → Bool) : FinishState :=
  { call.delete { st with history } row with
    downloads := st.downloads.filter fun r => !forgotten r }

/-- The completion of a subscription, as far as the two ways share it. -/
def completion (parseMediaRef : Text → Option MediaRef) (call : FinishCall) (st : FinishState)
    (row : FinishRow) (entry : HistoryEntry) (forgotten : DownloadHistoryRow → Bool) :
    FinishState :=
  match (call.subject row).upsertRssHistory parseMediaRef call.now entry st.history with
  | none => st
  | some history => call.completed st row history forgotten

theorem completion_eq {entry : HistoryEntry} {forgotten : DownloadHistoryRow → Bool}
    (clear : List DownloadHistoryRow → List DownloadHistoryRow)
    (hclear : ∀ downloads, clear downloads = downloads.filter fun r => !forgotten r) :
    st.complete parseMediaRef call (call.subject row) entry (call.delete · row) clear =
      call.completion parseMediaRef st row entry forgotten := by
  unfold FinishState.complete completion completed
  split <;> simp_all

/-- Downloads are forgotten where the subscription asks for better editions. -/
theorem clear_eq_filter (tmdbId season : Text) (downloads : List DownloadHistoryRow) :
    (if row.overEdition then clearDownloads row tmdbId season downloads else downloads) =
      downloads.filter fun r =>
        !decide (row.overEdition ∧ r.ofWork row tmdbId ∧ r.beginsWith season) := by
  by_cases hover : row.overEdition
  · simp [hover, clearDownloads]
  · simp [hover]

theorem finishRssSubscribe_eq :
    st.finishRssSubscribe parseMediaRef call = match call.row? st with
      | none => st
      | some row =>
        call.completion parseMediaRef st row (call.media.entry row) (call.forgets row) := by
  unfold FinishState.finishRssSubscribe row?
  by_cases hid : call.rssid = 0
  · simp [hid]
  by_cases hfilm : call.IsFilm
  · have htype : call.media.type = some .movie := hfilm
    simp only [hid, htype, hfilm, if_true, if_false]
    split
    · rfl
    · next row _ =>
      rw [← completion_eq (clearDownloads row call.media.tmdbId.toText [])]
      · simp [subject, delete, hfilm]
      · intro downloads
        simp [clearDownloads, forgets, hfilm, DownloadHistoryRow.beginsWith]
  · have htype : call.media.type ≠ some .movie := hfilm
    simp only [hid, htype, hfilm, if_false, clear_eq_filter]
    split
    · rfl
    · next row _ =>
      rw [← completion_eq _ (fun downloads => rfl)]
      simp [subject, delete, hfilm, forgets, and_left_comm]

theorem finalizeByRssid_eq :
    st.finalizeByRssid parseMediaRef call =
      if call.busy then st else match call.row? st with
        | none => st
        | some row =>
          call.completion parseMediaRef st row (call.laterEntry row) (call.forgetsLater row) := by
  unfold FinishState.finalizeByRssid FinishState.finalizeMovieByRssid
    FinishState.finalizeTvByRssid row?
  by_cases hbusy : call.busy
  · simp [hbusy]
  by_cases hid : call.rssid = 0
  · simp [hid]
  by_cases hfilm : call.IsFilm
  · have htype : call.media.type = some .movie := hfilm
    simp only [hid, hbusy, htype, hfilm, if_true, if_false, or_self, clear_eq_filter,
      Bool.false_eq_true]
    split
    · rfl
    · next row _ =>
      rw [← completion_eq _ (fun downloads => rfl)]
      simp [subject, delete, hfilm, forgetsLater, laterEntry, DownloadHistoryRow.beginsWith]
  · have htype : call.media.type ≠ some .movie := hfilm
    simp only [hid, hbusy, htype, hfilm, if_false, or_self, clear_eq_filter, Bool.false_eq_true]
    split
    · rfl
    · next row _ =>
      rw [← completion_eq _ (fun downloads => rfl)]
      simp [subject, delete, hfilm, forgetsLater, laterEntry]

theorem completion_of_refused {entry : HistoryEntry} {forgotten : DownloadHistoryRow → Bool}
    (h : (call.subject row).Refused entry st.history) :
    call.completion parseMediaRef st row entry forgotten = st := by
  rw [completion, HistorySubject.upsertRssHistory_eq_none.mpr h]

theorem completion_of_accepted (parseMediaRef : Text → Option MediaRef) {entry : HistoryEntry}
    (forgotten : DownloadHistoryRow → Bool)
    (h : ¬(call.subject row).Refused entry st.history) :
    ∃ history, (call.subject row).upsertRssHistory parseMediaRef call.now entry st.history =
        some history ∧
      call.completion parseMediaRef st row entry forgotten =
        call.completed st row history forgotten := by
  have hsome : (call.subject row).upsertRssHistory parseMediaRef call.now entry st.history ≠
      none := by rwa [Ne, HistorySubject.upsertRssHistory_eq_none]
  obtain ⟨history, hhistory⟩ := Option.ne_none_iff_exists'.mp hsome
  exact ⟨history, hhistory, by rw [completion, hhistory]⟩

/-- A completed subscription is gone, so the tables are others. -/
theorem completed_ne (hrow : call.row? st = some row) (history : List HistoryRow)
    (forgotten : DownloadHistoryRow → Bool) : call.completed st row history forgotten ≠ st := by
  intro h
  have hnone : call.row? (call.completed st row history forgotten) = none := row?_delete _
  rw [h, hrow] at hnone
  cases hnone

theorem completed_eq_iff {history history' : List HistoryRow}
    {forgotten forgotten' : DownloadHistoryRow → Bool} :
    call.completed st row history forgotten = call.completed st row history' forgotten' ↔
      history = history' ∧ ∀ r ∈ st.downloads, (forgotten r ↔ forgotten' r) := by
  constructor
  · intro h
    refine ⟨by simpa [completed] using congrArg FinishState.history h, ?_⟩
    have hdownloads := congrArg FinishState.downloads h
    simp only [completed] at hdownloads
    intro r hr
    have hmem := Iff.of_eq (congrArg (r ∈ ·) hdownloads)
    simp only [List.mem_filter, hr, true_and, Bool.not_eq_true'] at hmem
    rw [← not_iff_not, Bool.not_eq_true, Bool.not_eq_true]
    exact hmem
  · intro ⟨hhistory, hdownloads⟩
    subst hhistory
    have hfilter : (st.downloads.filter fun r => !forgotten r) =
        st.downloads.filter fun r => !forgotten' r :=
      List.filter_congr fun r hr => by rw [Bool.eq_iff_iff.mpr (hdownloads r hr)]
    simp only [completed, hfilter]

theorem forgets_iff {r : DownloadHistoryRow} :
    call.forgets row r ↔ r.ofWork row call.media.tmdbId.toText ∧
      (call.IsFilm ∨ row.overEdition ∧ r.beginsWith call.media.getSeasonString) := by
  simp [forgets]

theorem forgetsLater_iff {r : DownloadHistoryRow} :
    call.forgetsLater row r ↔ row.overEdition ∧
      if call.IsFilm then r.ofWork row (orEmpty row.tmdbId)
      else r.ofWork row (row.tvMedia call.mtype).tmdbId.toText ∧
        r.beginsWith (row.tvMedia call.mtype).getSeasonString := by
  by_cases hfilm : call.IsFilm <;> simp [forgetsLater, hfilm]

/-- The condition on a completed download: both ways forget it or keep it together, and of a
series the season is right. -/
theorem matchesDownload_iff {r : DownloadHistoryRow} :
    call.MatchesDownload row r ↔ (call.forgets row r ↔ call.forgetsLater row r) ∧
      (¬call.IsFilm → call.forgets row r → seasonMatches row.season r.season) := by
  rw [forgets_iff, forgetsLater_iff, MatchesDownload]
  by_cases hfilm : call.IsFilm
  · simp [hfilm]
  · by_cases hover : row.overEdition
    · simp [hfilm, hover]
    · simp [hfilm, hover]

/-- Two completions of one subscription leave the same tables where the history accepts neither
entry, or where they leave the same history and forget the same downloads. -/
theorem completion_eq_iff (hrow : call.row? st = some row) {entry entry' : HistoryEntry}
    {forgotten forgotten' : DownloadHistoryRow → Bool} :
    call.completion parseMediaRef st row entry forgotten =
        call.completion parseMediaRef st row entry' forgotten' ↔
      ((call.subject row).Refused entry st.history ∧ (call.subject row).Refused entry' st.history) ∨
        (((call.subject row).Recorded st.history ∨
            ¬(call.subject row).Refused entry st.history ∧
              (call.subject row).Agree parseMediaRef entry entry' st.history) ∧
          ∀ r ∈ st.downloads, (forgotten r ↔ forgotten' r)) := by
  by_cases hrefused : (call.subject row).Refused entry st.history
  · have hrecorded := hrefused.1
    rw [completion_of_refused hrefused]
    by_cases hrefused' : (call.subject row).Refused entry' st.history
    · simp [completion_of_refused hrefused', hrefused, hrefused']
    · obtain ⟨history', _, hcompletion'⟩ :=
        completion_of_accepted parseMediaRef forgotten' hrefused'
      rw [hcompletion']
      simp [hrefused, hrefused', hrecorded, (completed_ne hrow history' forgotten').symm]
  obtain ⟨history, hhistory, hcompletion⟩ := completion_of_accepted parseMediaRef forgotten hrefused
  rw [hcompletion]
  by_cases hrefused' : (call.subject row).Refused entry' st.history
  · have hrecorded := hrefused'.1
    have hagree : ¬(call.subject row).Agree parseMediaRef entry entry' st.history :=
      fun h => hrefused (h.refused_iff.mpr hrefused')
    rw [completion_of_refused hrefused']
    simp [hrefused, hrecorded, hagree, completed_ne hrow history forgotten]
  · obtain ⟨history', hhistory', hcompletion'⟩ :=
      completion_of_accepted parseMediaRef forgotten' hrefused'
    have hsame : (call.subject row).upsertRssHistory parseMediaRef call.now entry st.history =
        (call.subject row).upsertRssHistory parseMediaRef call.now entry' st.history ↔ _ :=
      HistorySubject.upsertRssHistory_eq_iff
    rw [hhistory, hhistory', Option.some.injEq] at hsame
    rw [hcompletion', completed_eq_iff, hsame]
    simp [hrefused]

/-- A download that is gone after a completion was forgotten by it. -/
theorem forgotten_of_notMem {entry : HistoryEntry} {forgotten : DownloadHistoryRow → Bool}
    {r : DownloadHistoryRow} (hr : r ∈ st.downloads)
    (h : r ∉ (call.completion parseMediaRef st row entry forgotten).downloads) : forgotten r := by
  by_contra hkept
  rw [completion] at h
  split at h
  · exact h hr
  · exact h (by simp [completed, hr, hkept])

/-- Downloads that a completion forgets are gone. -/
theorem notMem_of_forgotten {entry : HistoryEntry} {forgotten : DownloadHistoryRow → Bool}
    {r : DownloadHistoryRow} (haccepted : ¬(call.subject row).Refused entry st.history)
    (h : forgotten r) :
    r ∉ (call.completion parseMediaRef st row entry forgotten).downloads := by
  obtain ⟨history, _, hcompletion⟩ := completion_of_accepted parseMediaRef forgotten haccepted
  simp [hcompletion, completed, h]

/-- A completion changes nothing exactly where the history refuses the entry. -/
theorem completion_eq_self (hrow : call.row? st = some row) {entry : HistoryEntry}
    {forgotten : DownloadHistoryRow → Bool} :
    call.completion parseMediaRef st row entry forgotten = st ↔
      (call.subject row).Refused entry st.history := by
  refine ⟨fun h => ?_, completion_of_refused⟩
  by_contra haccepted
  obtain ⟨history, _, hcompletion⟩ := completion_of_accepted parseMediaRef forgotten haccepted
  exact completed_ne hrow history forgotten (hcompletion ▸ h)

/-- Both ways of finishing a subscription leave the same tables and forget only downloads of its
season exactly where the row, the item and the tables match. -/
theorem finishedAlike_iff (parseMediaRef : Text → Option MediaRef) (call : FinishCall)
    (st : FinishState) :
    call.FinishedAlike parseMediaRef st ∧ call.OnlySeason parseMediaRef st ↔
      ∀ row ∈ call.row? st, call.Matches parseMediaRef st row := by
  unfold FinishedAlike OnlySeason
  rw [finishRssSubscribe_eq, finalizeByRssid_eq]
  cases hrow : call.row? st with
  | none => simp
  | some row =>
    simp only [Option.mem_some_iff, forall_eq', Matches, matchesDownload_iff]
    by_cases hbusy : call.busy
    · simp only [hbusy, if_true, completion_eq_self hrow, true_or, and_true, not_true_eq_false,
        false_and, or_false]
      refine ⟨fun h => h.1, fun hrefused => ⟨hrefused, ?_⟩⟩
      intro _ r hr h
      rw [completion_of_refused hrefused] at h
      exact absurd hr (h.elim id id)
    · simp only [hbusy, if_false, completion_eq_iff hrow, false_or, not_false_eq_true, true_and,
        Bool.false_eq_true]
      constructor
      · intro ⟨hsame, hseason⟩
        refine hsame.imp id fun h => ⟨h.1, fun r hr => ⟨h.2 r hr, fun hfilm hforgets => ?_⟩⟩
        have haccepted : ¬(call.subject row).Refused (call.media.entry row) st.history := by
          rcases h.1 with hrecorded | hagree
          · exact fun hrefused => hrefused.1 hrecorded
          · exact hagree.1
        exact hseason hfilm r hr (.inl (notMem_of_forgotten haccepted hforgets))
      · intro h
        refine ⟨h.imp id fun h => ⟨h.1, fun r hr => (h.2 r hr).1⟩, ?_⟩
        intro hfilm r hr hgone
        rcases h with hrefused | ⟨_, hdownloads⟩
        · rw [completion_of_refused hrefused.1, completion_of_refused hrefused.2] at hgone
          exact absurd hr (hgone.elim id id)
        · obtain ⟨hsame, hseason⟩ := hdownloads r hr
          rcases hgone with hgone | hgone
          · exact hseason hfilm (forgotten_of_notMem hr hgone)
          · exact hseason hfilm (hsame.mpr (forgotten_of_notMem hr hgone))

/-- A subscription to the second season of a series that goes on for better editions. -/
def secondSeasonRow : FinishRow where
  id := 1
  name := of "Show"
  season := of "S02"
  tmdbId := some (of "7")
  overEdition := true
  image := some (of "poster")
  description := some (of "text")

/-- The tables with it, and with two completed downloads of the series. -/
def secondSeason : FinishState where
  movies := []
  tvs := [secondSeasonRow]
  downloads := [of "S01 E01", of "S02 E01"].map fun se =>
    { type := of "tv", state := of "completed", se := some se, tmdbId := some (of "7") }

/-- Its second season is found. -/
def secondSeasonFound : FinishCall where
  rssid := 1
  media := {
    type := some .tv, tmdbId := .int 7, beginSeason := some 2, posterPath := of "poster",
    overview := some (of "text") }
  now := of "now"

/-- A subscription to a film, and a completed download of it. -/
def oneFilm : FinishState where
  movies := [{ id := 1, name := of "Film", tmdbId := some (of "7"),
               image := some (of "poster"), description := some (of "text") }]
  tvs := []
  downloads := [{ type := of "movie", state := of "completed", tmdbId := some (of "7") }]

/-- The film is found. -/
def oneFilmFound : FinishCall where
  rssid := 1
  media := {
    type := some .movie, tmdbId := .int 7, posterPath := of "poster",
    overview := some (of "text") }
  now := of "now"

/-- A stored season that is not written in digits is read as the first one: after the transfer of
the second season the downloads of the first are forgotten and its own are kept.  And a film that
is finished at once loses its downloads, though it does not go on for better editions. -/
theorem first_season_forgotten :
    (¬secondSeasonFound.FinishedAlike (fun _ => none) secondSeason ∧
      ¬secondSeasonFound.OnlySeason (fun _ => none) secondSeason) ∧
    ¬oneFilmFound.FinishedAlike (fun _ => none) oneFilm := by
  refine ⟨⟨?_, ?_⟩, ?_⟩
  · unfold FinishedAlike
    decide +kernel
  · intro h
    have hgone := h (by decide) secondSeasonRow (by decide +kernel)
    revert hgone
    decide +kernel
  · unfold FinishedAlike
    decide +kernel

end FinishCall

end WolfNas
