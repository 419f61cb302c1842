import WolfNas.Media.EpisodeReaders
import WolfNas.Subscribe.LackList
import WolfNas.Subscribe.Rows

/-!
# What transfers do to subscriptions

A subscription that has been downloaded waits until the files are in the library.  Events of
the transfer, and a round that looks after what the events have missed, finalise it, or open it
again.  Each of them looks for the subscriptions of a work in its own way.

## Main definitions

* `HistoryRecord`, `Evidence` — what transfers and downloads say of their works.
* `Subscription` — a row of the movie or the TV table.
* `SubscriptionEnv` — the tables and what the handlers call.
* `TransferOp` — the events and the round.
* `SubscriptionEnv.onMovie`, `SubscriptionEnv.onTv` — what is done to a subscription.
-/

namespace WolfNas

open Text

/-- What a transfer, or the history of a download or a transfer, says of its work. -/
structure HistoryRecord where
  type : MediaType
  tmdbId : Text := []
  identityId : Text := []
  anchorProvider : Text := []
  anchorExternalId : Text := []
  contentProfile : Text := []
  seasonEpisode : Text := []
  userId : Option ℕ := none
  /-- When it was recorded; none where that is blank. -/
  date : Option ℕ := none
  deriving DecidableEq, Repr

/-- The records that a handler goes by: the work that its event is about (for a failed
transfer, the download that the path leads to), and the two histories. -/
structure Evidence where
  event : Option HistoryRecord := none
  downloads : List HistoryRecord := []
  transfers : List HistoryRecord := []

/-- The records of a kind. -/
def Evidence.restrict (p : HistoryRecord → Bool) (ev : Evidence) : Evidence :=
  { event := ev.event.filter p
    downloads := ev.downloads.filter p
    transfers := ev.transfers.filter p }

/-- A row of the movie or the TV table, with its owner and its state. -/
structure Subscription extends SubscribeRow where
  userId : Option ℕ := none
  state : Option SubscribeState := none
  deriving DecidableEq, Repr

/-- What is done to a subscription. -/
inductive TransferAction
  /-- It is finalised: written to the history and deleted. -/
  | finalise
  /-- It is searched for again, with the episodes it lacks where these change. -/
  | reopen (lack : Option (List ℕ))
  /-- Its progress is brought up to date. -/
  | progress
  deriving DecidableEq, Repr

/-- The tables, and what the handlers call. -/
structure SubscriptionEnv where
  movies : List Subscription
  tvs : List Subscription
  /-- The ids of the TV table are its primary key. -/
  nodup : (tvs.map fun sub => sub.id).Nodup
  /-- The recorded lacking episodes of a TV subscription. -/
  missing : ℕ → Option (List ℕ)
  /-- The work of an event is in the library. -/
  mediaExists : HistoryRecord → Bool
  /-- The work of a subscription is in the library. -/
  libraryHas : Subscription → Bool
  /-- The parsers of titles that plugins have registered. -/
  titleParser : Text → Option ParsedNumbers
  /-- `NAME LIKE '%title%'`. -/
  nameContains : Text → Text → Bool
  /-- `_titles_match`. -/
  titlesMatch : Text → Text → Bool

/-- An event of a transfer, or a round over all subscriptions that wait for one. -/
inductive TransferOp
  /-- `MEDIA_TRANSFER_FINISHED`. -/
  | movieTransferred
  /-- `MEDIA_EPISODE_TRANSFERRED`. -/
  | episodeTransferred (title season : Text) (episodes : List ℕ) (totalEpisodes : ℕ)
  /-- `TRANSFER_FAIL`. -/
  | transferFailed
  /-- `reconcile_pending_transfers`. -/
  | reconcile (cutoff : ℕ)

/-! ## A film was transferred -/

namespace Subscription

variable (sub : Subscription)

/-- The column of the TMDB number. -/
def tmdb : Text := orEmpty sub.tmdbId

/-- The column of the anchor's id. -/
def external : Text := orEmpty sub.anchorExternalId

/-- The column of the identity. -/
def identity : Text := orEmpty sub.identityId

/-- The two columns that name a provider. -/
def providers : List Text := [orEmpty sub.provider, orEmpty sub.anchorProvider]

end Subscription

/-- `MEDIA_TRANSFER_FINISHED` goes on to the subscriptions: it is about a film that can be told,
and that is in the library where TMDB knows it. -/
def SubscriptionEnv.movieArrived (env : SubscriptionEnv) (r : HistoryRecord) : Bool :=
  let plain := r.contentProfile = [] ∨ r.contentProfile = of "default"
  decide (r.type = .movie) &&
    !decide (r.tmdbId = [] ∧ plain ∧
      ¬(r.anchorProvider.strip ≠ [] ∧ r.anchorExternalId.strip ≠ [])) &&
    !(decide (r.tmdbId ≠ [] ∧ plain) && !env.mediaExists r)

/-- The film is taken for that of the subscription. -/
def movieMatched (r : HistoryRecord) (sub : Subscription) : Bool :=
  decide (r.tmdbId ≠ [] ∧ sub.tmdb = r.tmdbId) ||
    decide (r.anchorExternalId.strip ≠ [] ∧ sub.external = r.anchorExternalId.strip)

/-! ## A transfer failed -/

/-- The download can be told. -/
def failTold (h : HistoryRecord) : Bool :=
  decide (h.tmdbId ≠ [] ∨ (h.anchorProvider ≠ [] ∧ h.anchorExternalId ≠ []))

/-- The download is taken for that of a TV subscription. -/
def failMatchedTv (h : HistoryRecord) (sub : Subscription) : Bool :=
  decide (h.tmdbId ≠ [] ∧ sub.tmdb = h.tmdbId) ||
    decide (h.anchorExternalId ≠ [] ∧ sub.external = h.anchorExternalId) ||
    decide (h.identityId ≠ [] ∧ sub.identity = h.identityId)

/-- The download is taken for that of a movie subscription. -/
def failMatchedMovie (h : HistoryRecord) (sub : Subscription) : Bool :=
  decide (h.tmdbId ≠ [] ∧ sub.tmdb = h.tmdbId) ||
    decide (h.anchorProvider ≠ [] ∧ h.anchorExternalId ≠ [] ∧
      sub.external = h.anchorExternalId ∧ h.anchorProvider ∈ sub.providers)

/-- The download was that of the owner. -/
def ownedBy (h : HistoryRecord) (sub : Subscription) : Bool :=
  decide (h.userId = none ∨ sub.userId = h.userId)

/-- The season and the episodes of the failed download. -/
def SubscriptionEnv.failedEpisodes (env : SubscriptionEnv) (h : HistoryRecord) : Option ℕ × List ℕ :=
  reopened env.titleParser h.seasonEpisode

/-- The season of the failed download is that of the subscription. -/
def SubscriptionEnv.failedSeason (env : SubscriptionEnv) (h : HistoryRecord) (sub : Subscription) : Bool :=
  (env.failedEpisodes h).1.all fun n => decide (sub.season = ofNat n)

/-- The lacking episodes of a subscription that is opened again. -/
def SubscriptionEnv.reopenedLack (env : SubscriptionEnv) (h : HistoryRecord) (id : ℕ) : Option (List ℕ) :=
  let failed := (env.failedEpisodes h).2
  if failed = [] then none else some (sortedSet ((env.missing id).getD [] ++ failed))

/-! ## An episode was transferred -/

/-- `content_profile` as a condition of a query. -/
def profileFilter (column : Text) (profile : Text) : Bool :=
  if profile = of "default" then decide (column = of "default" ∨ column = [])
  else decide (profile = [] ∨ column = profile)

/-- The condition on the owner of a row, where the event names a user. -/
def userFilter (r : HistoryRecord) (sub : Subscription) : Bool :=
  decide (r.userId = none ∨ sub.userId = r.userId)

/-- `get_rss_tv_id_by_anchor`. -/
def SubscriptionEnv.idByAnchor (env : SubscriptionEnv) (r : HistoryRecord) (season : Text) : Option ℕ :=
  let provider := r.anchorProvider.strip
  let external := r.anchorExternalId.strip
  if provider = [] ∨ external = [] then none
  else ((env.tvs.filter fun sub =>
    orEmpty sub.anchorProvider = provider ∧ sub.external = external ∧
      (season = [] ∨ sub.season = season) ∧ userFilter r sub ∧
      profileFilter sub.contentProfile r.contentProfile).map fun sub => sub.id).max?

/-- The subscription with the anchor of the event. -/
def SubscriptionEnv.tvByAnchor (env : SubscriptionEnv) (r : HistoryRecord) (season : Text) : Option ℕ :=
  if r.anchorProvider = [] ∨ r.anchorExternalId = [] then none
  else (env.idByAnchor r season).filter (· ≠ 0)

/-- The title without what follows its first bracket. -/
def beforeBracket : Text → Text
  | ' ' :: '(' :: _ => []
  | c :: s => c :: beforeBracket s
  | [] => []

/-- `_fuzzy_subscribe_id`, without a year. -/
def SubscriptionEnv.fuzzySubscribeId (env : SubscriptionEnv) (title season : Text) :
    Option Subscription :=
  let base := (beforeBracket title).strip
  let rows := env.tvs.filter fun sub => season = [] ∨ seasonFilter sub.season season
  if base = [] then none
  else (rows.find? fun sub => env.nameContains sub.name base).or
    (rows.find? fun sub => env.titlesMatch sub.name base)

/-- `get_rss_tv_id`, by the TMDB number. -/
def SubscriptionEnv.tvByTmdb (env : SubscriptionEnv) (r : HistoryRecord) (title season : Text) :
    Option Subscription :=
  if title = [] ∨ r.tmdbId = [] then none
  else env.tvs.find? fun sub =>
    sub.tmdb = r.tmdbId ∧ userFilter r sub ∧ seasonFilter sub.season season

/-- `get_rss_tv_id`, by the title. -/
def SubscriptionEnv.tvByTitle (env : SubscriptionEnv) (r : HistoryRecord) (title season : Text) :
    Option Subscription :=
  if title = [] then none
  else (env.tvs.find? fun sub =>
    sub.name = title ∧ userFilter r sub ∧ seasonFilter sub.season season).or
      (env.fuzzySubscribeId title season)

/-- The subscription that an event about an episode is taken for. -/
def SubscriptionEnv.episodeTarget (env : SubscriptionEnv) (r : HistoryRecord) (title season : Text) :
    Option ℕ :=
  (env.tvByAnchor r season).or
    (((env.tvByTmdb r title season).or (env.tvByTitle r title season)).map fun sub => sub.id)

/-- The event brings the progress of the subscription up to date. -/
def SubscriptionEnv.progressKnown (env : SubscriptionEnv) (id : ℕ) (episodes : List ℕ) (total : ℕ) :
    Bool :=
  decide (id ≠ 0 ∧ episodes ≠ [] ∧ ((env.missing id).getD [] ≠ [] ∨ total ≠ 0))

/-! ## The round -/

/-- The record of the last download. -/
def latestDate (rows : List HistoryRecord) : Option ℕ := (rows.filterMap HistoryRecord.date).max?

/-- The last download is older than the cutoff. -/
def stale (cutoff : ℕ) (rows : List HistoryRecord) : Bool :=
  (latestDate rows).any (· < cutoff)

/-- The downloads that `_pending_stale` reads. -/
def pendingDownloads (downloads : List HistoryRecord) (tmdb identity provider external : Text) :
    List HistoryRecord :=
  if tmdb ≠ [] then downloads.filter fun r => r.tmdbId = tmdb
  else downloads.filter fun r =>
    (identity ≠ [] ∧ r.identityId = identity) ∨
      (provider ≠ [] ∧ external ≠ [] ∧ r.anchorProvider = provider ∧ r.anchorExternalId = external)

/-- The anchor of a subscription, as the round takes it. -/
def Subscription.pair (sub : Subscription) : Text × Text :=
  (orEmpty sub.anchor.1, orEmpty sub.anchor.2)

/-- The anchors of the movie subscriptions that have one. -/
def SubscriptionEnv.pairs (env : SubscriptionEnv) : List (Text × Text) :=
  (env.movies.map Subscription.pair).filter fun pair => pair.1 ≠ [] ∧ pair.2 ≠ []

/-- `get_existing_anchors`. -/
def existingAnchors (transfers : List HistoryRecord) (pairs : List (Text × Text)) :
    List (Text × Text) :=
  (transfers.map fun t => (t.anchorProvider, t.anchorExternalId)).filter fun anchor =>
    anchor ∈ (pairs.map fun pair => (pair.1.strip, pair.2.strip)).filter fun pair =>
      pair.1 ≠ [] ∧ pair.2 ≠ []

/-- `get_existing_external_ids`. -/
def existingExternalIds (transfers : List HistoryRecord) (ids : List Text) : List Text :=
  (transfers.map HistoryRecord.anchorExternalId).filter fun id =>
    id ≠ [] ∧ id ∈ ids.map Text.strip

/-- The film of a subscription was transferred, by the history. -/
def SubscriptionEnv.transferred (env : SubscriptionEnv) (transfers : List HistoryRecord)
    (sub : Subscription) : Bool :=
  decide (sub.pair ∈ existingAnchors transfers env.pairs) ||
    decide (sub.pair.2 ≠ [] ∧ sub.pair.2 ∈ existingExternalIds transfers (env.pairs.map Prod.snd))

/-! ## What is done -/

namespace SubscriptionEnv

variable (env : SubscriptionEnv)

/-- What is done to a TV subscription. -/
def onTv (op : TransferOp) (ev : Evidence) (sub : Subscription) : Option TransferAction :=
  match op with
  | .movieTransferred => none
  | .episodeTransferred title season episodes total =>
    match ev.event with
    | none => none
    | some r =>
      if env.episodeTarget r title season = some sub.id ∧
          env.progressKnown sub.id episodes total then some .progress
      else none
  | .transferFailed =>
    match ev.event with
    | none => none
    | some h =>
      if failTold h ∧ failMatchedTv h sub ∧ env.failedSeason h sub ∧ ownedBy h sub then
        some (.reopen (env.reopenedLack h sub.id))
      else none
  | .reconcile cutoff =>
    if sub.state = some .completed then
      if env.libraryHas sub then some .finalise
      else if sub.tmdb ≠ [] ∧ stale cutoff (pendingDownloads ev.downloads sub.tmdb [] [] []) then
        some (.reopen none)
      else none
    else none

/-- What is done to a movie subscription. -/
def onMovie (op : TransferOp) (ev : Evidence) (sub : Subscription) : Option TransferAction :=
  match op with
  | .movieTransferred =>
    match ev.event with
    | none => none
    | some r => if env.movieArrived r ∧ sub.id ≠ 0 ∧ movieMatched r sub then some .finalise else none
  | .episodeTransferred _ _ _ _ => none
  | .transferFailed =>
    match ev.event with
    | none => none
    | some h =>
      if failTold h ∧ failMatchedMovie h sub ∧ ownedBy h sub then some (.reopen none) else none
  | .reconcile cutoff =>
    if env.transferred ev.transfers sub then some .finalise
    else if sub.state = none ∨ sub.state = some .completed then
      if env.libraryHas sub then some .finalise
      else if stale cutoff (pendingDownloads ev.downloads sub.tmdb sub.identity sub.pair.1
          sub.pair.2) then some (.reopen none)
      else none
    else none

end SubscriptionEnv

end WolfNas
