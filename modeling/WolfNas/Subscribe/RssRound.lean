import WolfNas.Download.Offers
import WolfNas.Subscribe.RssDedup

/-!
# From the matched items of an RSS round to the downloader

The items a round has matched, and recorded as handled, pass several filters before the
downloader gets them: one item for each link, one for each lock of the coordinator, and three
films for each subscription.

## Main definitions

* `coordinatorKey` — the lock of an item.
* `RoundEnv`, `RoundEnv.candidate` — what the round calls, and an item as the downloader gets it.
* `RoundEnv.uniqueLinks`, `RoundEnv.sorted`, `RoundEnv.acquire`, `RoundEnv.capMovies` — the
  filters.
* `RoundEnv.matchedTorrents`, `RoundEnv.batch` — what the downloader gets, and what it does.

## Main results

* `RoundEnv.mem_uniqueLinks`, `RoundEnv.mem_acquire`, `RoundEnv.mem_capMovies` — when an item
  passes a filter.
-/

namespace WolfNas

open Text

/-- `DownloadCoordinator._key`. -/
def coordinatorKey (m : MediaInfo) (rssid : ℕ) : Text :=
  let season := m.getSeasonString
  let identity :=
    if mediaSeriesScopeKey m ≠ [] then mediaSeriesScopeKey m else orEmpty m.identityId
  if identity ≠ [] then of "subscribe:download:identity:" ++ identity.joinColon season
  else if m.tmdbId.truthy then of "subscribe:download:" ++ m.tmdbId.toText.joinColon season
  else if rssid ≠ 0 then of "subscribe:download:rssid:" ++ ofNat rssid
  else
    let title := if orEmpty m.title = [] then of "unknown" else orEmpty m.title
    of "subscribe:download:manual:" ++ title.joinColon ((orEmpty m.year).joinColon season)

/-- What a round calls on its way to the downloader. -/
structure RoundEnv where
  rss : RssEnv
  dl : DownloadEnv
  /-- The hosts that `urlsplit` accepts. -/
  hostOk : Text → Bool
  /-- The lock is held by someone else. -/
  lockHeld : Text → Bool
  siteOrder : RssTorrent → ℤ
  resOrder : RssTorrent → ℤ
  /-- The fields that are compared, and not read. -/
  rest : RssTorrent → ℕ

namespace RoundEnv

variable (env : RoundEnv)

/-- An item as the downloader gets it. -/
def candidate (t : RssTorrent) : Candidate where
  media := { env.rss.parsedTorrent t with
    enclosure := if t.item.enclosure = [] then none else some t.item.enclosure }
  pageUrl := t.item.pageUrl
  resOrder := env.resOrder t
  siteOrder := env.siteOrder t
  rssid := if t.info.id = 0 then none else some t.info.id
  rest := env.rest t

/-- The key by which repeated items are found.  A link that is refused would have ended the
round before. -/
def linkKey (t : RssTorrent) : Text :=
  let enclosure := t.item.enclosure
  let key :=
    if enclosure ≠ [] ∧ !enclosure.startsWith (of "magnet:") then
      (canonicalizeEnclosure env.hostOk (some enclosure)).getD []
    else t.item.pageUrl
  if key ≠ [] then key else if t.info.id = 0 then [] else ofNat t.info.id

/-- The items with a new link, or without any; `seen` are the links of those before. -/
def uniqueLinks : List Text → List RssTorrent → List RssTorrent
  | _, [] => []
  | seen, t :: l =>
    if env.linkKey t = [] then t :: uniqueLinks seen l
    else if env.linkKey t ∈ seen then uniqueLinks seen l
    else t :: uniqueLinks (env.linkKey t :: seen) l

/-- `_rss_sort_key`. -/
def sortKey (t : RssTorrent) : List ℤ :=
  let c := env.candidate t
  let count : ℕ := max c.media.getEpisodeList.length c.media.totalEpisodes
  if env.dl.bySeeders then [c.collectionPriority, count, c.seeders, c.resOrder, c.siteOrder]
  else [c.collectionPriority, count, c.siteOrder, c.resOrder, c.seeders]

/-- The items in order, the best first. -/
def sorted (l : List RssTorrent) : List RssTorrent :=
  l.insertionSort fun t t' => env.sortKey t' ≤ env.sortKey t

/-- The key of an item's lock. -/
def lockKey (t : RssTorrent) : Text := coordinatorKey (env.candidate t).media t.info.id

/-- The items whose lock is free; `taken` are the locks of those before. -/
def acquire : List Text → List RssTorrent → List RssTorrent
  | _, [] => []
  | taken, t :: l =>
    if env.lockHeld (env.lockKey t) ∨ env.lockKey t ∈ taken then acquire taken l
    else t :: acquire (env.lockKey t :: taken) l

/-- At most three films of a subscription; `counted` are the subscriptions of those before. -/
def capMovies : List ℕ → List RssTorrent → List RssTorrent
  | _, [] => []
  | counted, t :: l =>
    if (env.candidate t).media.type ≠ some .movie ∨ t.info.id = 0 then t :: capMovies counted l
    else if 3 ≤ counted.count t.info.id then capMovies counted l
    else t :: capMovies (t.info.id :: counted) l

variable (rssMovies rssTvs : List SubscribeInfo) (items : List RssItem)

/-- The items recorded as handled. -/
def handled : List RssTorrent := (env.rss.poll rssMovies rssTvs items).torrents

/-- The items the downloader gets. -/
def matchedTorrents : List RssTorrent :=
  env.capMovies [] (env.acquire [] (env.sorted (env.uniqueLinks [] (env.handled rssMovies rssTvs items))))

/-- The seasons the downloader gets. -/
def needs : Needs := (env.rss.poll rssMovies rssTvs items).needs

/-- What the downloader does with them. -/
def batch : Batch :=
  env.dl.batchDownload (env.needs rssMovies rssTvs items)
    ((env.matchedTorrents rssMovies rssTvs items).map env.candidate)

/-! ## What the filters let through -/

variable {env} {t : RssTorrent} {l : List RssTorrent}

theorem uniqueLinks_eq_capBy (seen : List Text) (l : List RssTorrent) :
    env.uniqueLinks seen l =
      capBy (fun t => if env.linkKey t = [] then none else some (env.linkKey t)) (fun _ => 1)
        seen l := by
  induction l generalizing seen with
  | nil => rfl
  | cons t l ih =>
    by_cases hlink : env.linkKey t = []
    · simp [uniqueLinks, capBy, hlink, ih]
    · simp [uniqueLinks, capBy, hlink, ih]

/-- An item stays exactly where none in front of it has its link. -/
theorem mem_uniqueLinks : t ∈ env.uniqueLinks [] l ↔
    t ∈ l ∧ (env.linkKey t ≠ [] → ∀ t' ∈ before l t, env.linkKey t' ≠ env.linkKey t) := by
  rw [uniqueLinks_eq_capBy, mem_capBy]
  refine and_congr_right fun _ => ?_
  by_cases hlink : env.linkKey t = []
  · simp [hlink]
  · simp only [if_neg hlink, Option.some.injEq, forall_eq', Nat.lt_one_iff, List.countP_eq_zero,
      decide_eq_true_eq]
    refine (imp_iff_right hlink).symm.trans (imp_congr_right fun _ => forall₂_congr fun t' _ => ?_)
    by_cases h : env.linkKey t' = []
    · simp [h, Ne.symm hlink]
    · simp [h]

theorem acquire_eq_capBy (taken : List Text) (l : List RssTorrent) :
    env.acquire taken l =
      capBy (fun t => some (env.lockKey t)) (fun key => if env.lockHeld key then 0 else 1)
        taken l := by
  induction l generalizing taken with
  | nil => rfl
  | cons t l ih =>
    by_cases hheld : env.lockHeld (env.lockKey t) = true
    · simp [acquire, capBy, hheld, ih]
    · simp [acquire, capBy, hheld, ih]

/-- An item stays exactly where its lock is free and none in front of it has the same. -/
theorem mem_acquire : t ∈ env.acquire [] l ↔ t ∈ l ∧ env.lockHeld (env.lockKey t) = false ∧
    ∀ t' ∈ before l t, env.lockKey t' ≠ env.lockKey t := by
  rw [acquire_eq_capBy, mem_capBy]
  refine and_congr_right fun _ => ?_
  by_cases hheld : env.lockHeld (env.lockKey t) = true
  · simp [hheld]
  · simp [hheld, List.countP_eq_zero]

/-- The subscription by which a film is counted. -/
def filmRssid (env : RoundEnv) (t : RssTorrent) : Option ℕ :=
  if (env.candidate t).media.type ≠ some .movie ∨ t.info.id = 0 then none else some t.info.id

theorem capMovies_eq_capBy (counted : List ℕ) (l : List RssTorrent) :
    env.capMovies counted l = capBy env.filmRssid (fun _ => 3) counted l := by
  induction l generalizing counted with
  | nil => rfl
  | cons t l ih =>
    by_cases hfilm : (env.candidate t).media.type ≠ some .movie ∨ t.info.id = 0
    · have hnone : env.filmRssid t = none := if_pos hfilm
      simp only [capMovies, capBy, hnone, if_pos hfilm, ih]
    · have hsome : env.filmRssid t = some t.info.id := if_neg hfilm
      simp [capMovies, capBy, hsome, if_neg hfilm, ih, List.count, beq_eq_decide]

/-- An item stays exactly where it is no film, or fewer than three in front of it are films of
its subscription. -/
theorem mem_capMovies : t ∈ env.capMovies [] l ↔ t ∈ l ∧ ∀ id, env.filmRssid t = some id →
    (before l t).countP (fun t' => env.filmRssid t' = some id) < 3 := by
  rw [capMovies_eq_capBy, mem_capBy]

end RoundEnv

end WolfNas
