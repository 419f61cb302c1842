import WolfNas.Lib.Dict
import WolfNas.Lib.Run
import WolfNas.Media.KeySource
import WolfNas.Subscribe.Matcher

/-!
# One round of the RSS strategy

A round walks the identified feed items in order.  For an item that matches a series
subscription it files the season the subscription still needs under a key of the item, and
only then copies the subscription's identity onto the item and hands it to the downloader.
The downloader computes the key of the item again and looks up what is needed under it.

## Main definitions

* `RssItem`, `RssEnv` — a feed item, and what the round calls besides its own code.
* `Verdict`, `RssEnv.verdict` — what the round does with one item.
* `RssEnv.pollItem`, `RssEnv.poll` — one step of the round, and the round.
* `Filing` — one needed season, as it is filed.
* `mediaKey`, `carryOver` — the key a season is filed under, and the item the downloader gets.
* `KeyCarriedOver` — when the copied fields leave the item's key as it was.
-/

namespace WolfNas

open Text

/-- A feed item with its identification. -/
structure RssItem where
  title : Text
  enclosure : Text := []
  pageUrl : Text := []
  size : ℕ := 0
  siteName : Text := []
  media : Option MediaInfo
  providerData : Bool := true
  deriving DecidableEq, Repr

/-- One season a subscription needs. -/
structure NeedEntry where
  season : ℤ
  episodes : List ℕ
  totalEpisodes : ℕ
  episodeOffset : ℕ := 0
  deriving DecidableEq, Repr

/-- The needed seasons of a round, by key. -/
abbrev Needs := Dict IdValue (List NeedEntry)

/-- A needed season as it is filed, with the item and the subscription it is filed for. -/
structure Filing where
  key : IdValue
  entry : NeedEntry
  media : MediaInfo
  info : SubscribeInfo
  deriving DecidableEq, Repr

/-- An item handed to the downloader. -/
structure RssTorrent where
  item : RssItem
  media : MediaInfo
  info : SubscribeInfo
  siblings : List ℕ
  deriving DecidableEq, Repr

/-- What the round calls besides its own code. -/
structure RssEnv where
  matcher : MatcherEnv
  /-- The subscription may use the item's source. -/
  visible : RssItem → SubscribeInfo → Bool
  /-- The download history has the item. -/
  completed : MediaInfo → Bool
  /-- The item after its TMDB details are loaded, and whether they were found. -/
  loadTmdb : MediaInfo → MediaInfo × Bool
  /-- The current number of episodes of a season; `0` where it cannot be read. -/
  seasonTotal : MediaInfo → ℤ → ℕ
  /-- The needed episodes stored with a subscription. -/
  subscribeTvEpisodes : ℕ → Option (List ℕ)
  /-- The offset of a season's episode numbers. -/
  episodeOffset : Text → ℤ → ℕ
  /-- The library has the film. -/
  movieExists : MediaInfo → Bool
  /-- The episodes of a season the library lacks. -/
  missingEpisodes : MediaInfo → ℕ → ℕ → List ℕ
  /-- A better edition is wanted and the item is one. -/
  overEditionOk : MediaInfo → SubscribeInfo → Bool
  /-- The site limits requests at the moment. -/
  rateLimited : RssItem → Bool
  /-- The episodes found in the torrent file. -/
  torrentEpisodes : RssTorrent → List ℕ

/-! ## Filing a needed season -/

/-- The key a needed season is filed under. -/
def mediaKey (m : MediaInfo) : IdValue :=
  if mediaSeriesScopeKey m ≠ [] then .text (mediaSeriesScopeKey m) else m.tmdbId

/-- The subscription's fields that are copied onto a matched item. -/
def carryOver (m : MediaInfo) (s : SubscribeInfo) : MediaInfo :=
  { m with
    contentProfile :=
      if s.contentProfile ≠ [] then s.contentProfile else m.contentProfile
    anchorProvider := s.anchorProvider
    anchorExternalId := s.anchorExternalId
    identityId := s.identityId
    seriesKey := s.seriesKey
    provider := s.provider
    metadataRef := some s.metadataRef }

/-- A season entry takes the place of the entry for the same season. -/
def putSeason (entry : NeedEntry) : List NeedEntry → List NeedEntry
  | [] => [entry]
  | e :: es => if e.season = entry.season then entry :: es else e :: putSeason entry es

/-- Filing one needed season. -/
def fileNeed (needs : Needs) (f : Filing) : Needs :=
  needs.set f.key (putSeason f.entry ((needs.get f.key).getD []))

/-- One season entry of `get_intersection_episodes`. -/
def intersectEntry (source : List NeedEntry) (target : NeedEntry) : NeedEntry :=
  match source.find? fun e => e.season = target.season with
  | none => target
  | some e =>
    if e.episodes = [] ∨ target.episodes = [] then target
    else { target with episodes := target.episodes.filter (· ∈ e.episodes) }

/-- `Torrent.get_intersection_episodes`. -/
def getIntersectionEpisodes (target source : Needs) (title : IdValue) : Needs :=
  if !title.truthy then target
  else match source.get title with
    | none | some [] => target
    | some entries => match target.get title with
      | none | some [] => target.set title entries
      | some old => target.set title (old.map (intersectEntry entries))

/-- The state of a round: the needed seasons, and the items for the downloader. -/
structure RoundState where
  needs : Needs
  torrents : List RssTorrent

/-- What the round does with one item. -/
inductive Verdict
  /-- The item is passed over. -/
  | skip
  /-- The item goes to the downloader, with nothing filed for it. -/
  | take (t : RssTorrent)
  /-- A season is filed for the item; the item goes to the downloader unless the library is
  complete. -/
  | file (f : Filing) (t : RssTorrent)

namespace RssEnv

variable (env : RssEnv)

/-- The match of an item among the subscriptions its source may serve. -/
def matched (rssMovies rssTvs : List SubscribeInfo) (item : RssItem) : Option MatcherEnv.Match :=
  match item.media with
  | none => none
  | some m =>
    let media := if item.siteName = [] then m else { m with site := some item.siteName }
    if item.title = [] ∨ env.completed media then none
    else match env.matcher.match media (rssMovies.filter (env.visible item))
        (rssTvs.filter (env.visible item)) with
      | .error _ => none
      | .ok found => found

/-- The item with its TMDB details, where the subscription can do with what there is. -/
def withProviderData (item : RssItem) (m : MediaInfo) (s : SubscribeInfo) : Option MediaInfo :=
  let loaded := if !item.providerData && m.tmdbId.truthy then env.loadTmdb m
    else (m, item.providerData)
  if !loaded.2 && (s.contentProfile = [] || s.contentProfile = of "default") &&
      (orEmpty s.anchorProvider = [] || orEmpty s.anchorProvider = of "tmdb") then none
  else some loaded.1

/-- `int(season.replace("S", ""))`, and the first season where there is none. -/
def subscribedSeason (s : SubscribeInfo) : Option ℤ :=
  if s.season = [] then some 1 else parseInt (s.season.filter (· ≠ 'S'))

/-- The needed season of a subscription, filed for an item. -/
def filing (m : MediaInfo) (s : SubscribeInfo) (season : ℤ) : Filing :=
  let newTotal := if s.id ≠ 0 ∧ m.tmdbId.truthy then env.seasonTotal m season else 0
  let total := if newTotal > 0 ∧ newTotal > s.total then newTotal else s.total
  let episodes := match env.subscribeTvEpisodes s.id with
    | some episodes => episodes
    | none => if s.currentEp ≠ 0 then List.range' s.currentEp (total + 1 - s.currentEp) else []
  { key := mediaKey m
    entry := ⟨season, episodes, total, env.episodeOffset (orEmpty s.seriesKey) season⟩
    media := m
    info := s }

/-- What the round does with one item. -/
def verdict (rssMovies rssTvs : List SubscribeInfo) (item : RssItem) : Verdict :=
  match env.matched rssMovies rssTvs item with
  | none => .skip
  | some ⟨s, siblings, m⟩ =>
    let torrent := fun media : MediaInfo => RssTorrent.mk item (carryOver media s) s siblings
    if s.fuzzyMatch then .take (torrent m)
    else match env.withProviderData item m s with
      | none => .skip
      | some m =>
        if s.overEdition then
          if (m.type ≠ some .movie ∧ m.getEpisodeList ≠ []) ∨ !env.overEditionOk m s then .skip
          else .take (torrent m)
        else if m.type = some .movie then
          if env.movieExists m then .skip else .take (torrent m)
        else match subscribedSeason s with
          | none => .skip
          | some season => .file (env.filing m s season) (torrent m)

/-- The seasons the library lacks, under the item's TMDB id; `check_exists_medias` for a
series. -/
def checkExists (f : Filing) : Bool × Needs :=
  let season := (f.media.seasonSeq).getD 1
  let total := if (season : ℤ) = f.entry.season ∧ f.entry.totalEpisodes ≠ 0 then
      f.entry.totalEpisodes
    else f.media.totalEpisodes
  if total = 0 then (false, Dict.empty)
  else match env.missingEpisodes f.media season total with
    | [] => (true, Dict.empty)
    | missing => (false, Dict.empty.set f.media.tmdbId [⟨season, missing, total, 0⟩])

/-- An item is handed to the downloader, once, unless its site limits requests. -/
def offer (st : RoundState) (t : RssTorrent) : RoundState :=
  if env.rateLimited t.item ∨ t ∈ st.torrents then st
  else { st with torrents := st.torrents ++ [t] }

/-- One step of the round. -/
def pollItem (rssMovies rssTvs : List SubscribeInfo) (st : RoundState) (item : RssItem) :
    RoundState :=
  match env.verdict rssMovies rssTvs item with
  | .skip => st
  | .take t => env.offer st t
  | .file f t =>
    let checked := env.checkExists f
    let st := { st with
      needs := getIntersectionEpisodes (fileNeed st.needs f) checked.2 f.key }
    if checked.1 then st else env.offer st t

/-- A round. -/
def poll (rssMovies rssTvs : List SubscribeInfo) (items : List RssItem) : RoundState :=
  items.foldl (env.pollItem rssMovies rssTvs) ⟨Dict.empty, []⟩

/-- The item as the downloader sees it: a series whose name gives no episode takes the
episodes of its torrent file. -/
def parsedTorrent (t : RssTorrent) : MediaInfo :=
  let episodes := env.torrentEpisodes t
  if (t.media.type = some .tv ∨ t.media.type = some .anime) ∧ t.media.beginEpisode = none ∧
      t.item.enclosure ≠ [] ∧ !t.item.enclosure.startsWith (of "magnet:") ∧ episodes ≠ [] then
    { t.media with
      totalEpisodes := episodes.length
      beginEpisode := episodes.min?
      endEpisode := episodes.max? }
  else t.media

end RssEnv

/-! ## What one step does to the filed keys -/

theorem mem_keys_fileNeed {needs : Needs} {f : Filing} {k : IdValue} :
    k ∈ (fileNeed needs f).keys ↔ k = f.key ∨ k ∈ needs.keys := Dict.mem_keys_set

/-- The comparison with the library drops no key. -/
theorem mem_keys_getIntersectionEpisodes {target source : Needs} {title k : IdValue}
    (hk : k ∈ target.keys) : k ∈ (getIntersectionEpisodes target source title).keys := by
  rw [getIntersectionEpisodes]
  split_ifs
  · exact hk
  · split
    · exact hk
    · exact hk
    · split <;> exact Dict.mem_keys_set.mpr (Or.inr hk)

namespace RssEnv

variable (env : RssEnv) {rssMovies rssTvs : List SubscribeInfo}

@[simp] theorem needs_offer (st : RoundState) (t : RssTorrent) :
    (env.offer st t).needs = st.needs := by
  rw [offer]
  split_ifs <;> rfl

/-- A step after which the verdict filed a season: the seasons are those filed and compared
with the library. -/
theorem needs_pollItem_of_file {st : RoundState} {item : RssItem} {f : Filing} {t : RssTorrent}
    (h : env.verdict rssMovies rssTvs item = .file f t) :
    (env.pollItem rssMovies rssTvs st item).needs =
      getIntersectionEpisodes (fileNeed st.needs f) (env.checkExists f).2 f.key := by
  simp only [pollItem, h]
  split_ifs <;> simp

/-- No step drops a filed key. -/
theorem mem_keys_pollItem {st : RoundState} {item : RssItem} {k : IdValue}
    (hk : k ∈ st.needs.keys) : k ∈ (env.pollItem rssMovies rssTvs st item).needs.keys := by
  cases hv : env.verdict rssMovies rssTvs item with
  | skip => simpa [pollItem, hv] using hk
  | take t => simpa [pollItem, hv] using hk
  | file f t =>
    rw [env.needs_pollItem_of_file hv]
    exact mem_keys_getIntersectionEpisodes (mem_keys_fileNeed.mpr (Or.inr hk))

/-- The key a season is filed under is there at the end of the round. -/
theorem key_mem_poll {items : List RssItem} {item : RssItem} {f : Filing} {t : RssTorrent}
    (hitem : item ∈ items) (hv : env.verdict rssMovies rssTvs item = .file f t) :
    f.key ∈ (env.poll rssMovies rssTvs items).needs.keys := by
  refine Run.of_mem (fun st : RoundState => f.key ∈ st.needs.keys) hitem ?_ ?_
  · intro st
    rw [env.needs_pollItem_of_file hv]
    exact mem_keys_getIntersectionEpisodes (mem_keys_fileNeed.mpr (Or.inl rfl))
  · intro st other hk
    exact env.mem_keys_pollItem hk

/-- A verdict that files a season files the one of the matched subscription. -/
theorem verdict_filing {item : RssItem} {f : Filing} {t : RssTorrent}
    (h : env.verdict rssMovies rssTvs item = .file f t) :
    (∃ season, f = env.filing f.media f.info season) ∧ f.media.type ≠ some .movie ∧
      t.media = carryOver f.media f.info := by
  cases hm : env.matched rssMovies rssTvs item with
  | none => simp [verdict, hm] at h
  | some found =>
    obtain ⟨s, siblings, m⟩ := found
    by_cases hfuzzy : s.fuzzyMatch = true
    · simp [verdict, hm, hfuzzy] at h
    cases hload : env.withProviderData item m s with
    | none => simp [verdict, hm, hfuzzy, hload] at h
    | some m =>
      by_cases hover : s.overEdition = true
      · simp only [verdict, hm, hfuzzy, hload, hover, if_true] at h
        split_ifs at h
      by_cases hmovie : m.type = some .movie
      · simp only [verdict, hm, hfuzzy, hload, hover, hmovie, if_true] at h
        split_ifs at h
      cases hseason : subscribedSeason s with
      | none => simp [verdict, hm, hfuzzy, hload, hover, hmovie, hseason] at h
      | some season =>
        simp only [verdict, hm, hfuzzy, hload, hover, hmovie, hseason] at h
        obtain ⟨rfl, rfl⟩ := Verdict.file.inj h
        exact ⟨⟨season, rfl⟩, hmovie, rfl⟩

/-- What a verdict that files a season says about the filed season and the item. -/
theorem verdict_file {item : RssItem} {f : Filing} {t : RssTorrent}
    (h : env.verdict rssMovies rssTvs item = .file f t) :
    f.key = mediaKey f.media ∧ f.media.type ≠ some .movie ∧ t.media = carryOver f.media f.info := by
  obtain ⟨⟨season, hf⟩, hmovie, hmedia⟩ := env.verdict_filing h
  exact ⟨by rw [hf]; rfl, hmovie, hmedia⟩

/-- Reading the torrent file does not change the key of the item. -/
theorem scopeKey_parsedTorrent (t : RssTorrent) :
    mediaSeriesScopeKey (env.parsedTorrent t) = mediaSeriesScopeKey t.media := by
  simp only [parsedTorrent]
  split_ifs <;> rfl

end RssEnv

/-! ## The key before and after the copy -/

/-- A series item always has a season. -/
theorem seasonSeq_isSome {m : MediaInfo} (h : m.type ≠ some .movie) : ∃ n, m.seasonSeq = some n := by
  rw [MediaInfo.seasonSeq]
  cases m.beginSeason with
  | some n => exact ⟨n, rfl⟩
  | none => exact ⟨1, by simp [h]⟩

/-- The key of an item without any usable field is blank, and so is its TMDB id. -/
theorem normalizeIdentityKey_mediaKey (m : MediaInfo) :
    normalizeIdentityKey (mediaKey m) = normalizeIdentityKey (.text (mediaSeriesScopeKey m)) := by
  rw [mediaKey]
  by_cases h : mediaSeriesScopeKey m = []
  · rw [if_neg (not_not.mpr h), h, normalizeIdentityKey_tmdbId_of_scopeKey_eq_nil h]
    rfl
  · rw [if_pos h]

/-- The subscription's fields leave the key of an item as it was: the key that the item's own
fields lead to matches the one that the copied fields lead to. -/
def KeyCarriedOver (m : MediaInfo) (s : SubscribeInfo) : Prop :=
  SameKey (m.seasonSeq.getD 1) (keySource m) (keySource (carryOver m s))

instance (m : MediaInfo) (s : SubscribeInfo) : Decidable (KeyCarriedOver m s) := by
  unfold KeyCarriedOver
  infer_instance

/-- The key that a filed season is looked up under, against the key it was filed under. -/
theorem identityKeysMatch_mediaKey_iff {m : MediaInfo} {s : SubscribeInfo}
    (h : m.type ≠ some .movie) :
    identityKeysMatch (mediaKey m) (.text (mediaSeriesScopeKey (carryOver m s))) = true ↔
      KeyCarriedOver m s := by
  obtain ⟨n, hn⟩ := seasonSeq_isSome h
  have hcopied : (carryOver m s).seasonSeq = some n := hn
  rw [identityKeysMatch_scopeKey_iff (normalizeIdentityKey_mediaKey m) hn hcopied, KeyCarriedOver,
    hn]
  rfl

/-- **When a filed season is found again**: in every round, the key a season was filed under
is still there at the end, and it matches the key the downloader computes for the item
exactly where the subscription's fields leave the item's key as it was. -/
theorem filed_key_found_iff (env : RssEnv) (rssMovies rssTvs : List SubscribeInfo)
    (items : List RssItem) (item : RssItem) (f : Filing) (t : RssTorrent) (hitem : item ∈ items)
    (hv : env.verdict rssMovies rssTvs item = .file f t) :
    f.key ∈ (env.poll rssMovies rssTvs items).needs.keys ∧
      (identityKeysMatch f.key (.text (mediaSeriesScopeKey (env.parsedTorrent t))) = true ↔
        KeyCarriedOver f.media f.info) := by
  obtain ⟨hkey, hmovie, hmedia⟩ := env.verdict_file hv
  refine ⟨env.key_mem_poll hitem hv, ?_⟩
  rw [env.scopeKey_parsedTorrent, hmedia, hkey]
  exact identityKeysMatch_mediaKey_iff hmovie

/-- A series subscription at a TMDB number, with or without a series key of its own. -/
def subscribedSeries (seriesKey : Option Text) : SubscribeInfo :=
  openQuery.tvInfo { anchoredRow none with season := of "S01", seriesKey := seriesKey, total := 12 }

/-- An episode of that series in a feed, identified by its TMDB number. -/
def feedEpisode : RssItem where
  title := of "Show S01E03"
  media := some { resolvedItem with beginSeason := some 1, beginEpisode := some 3 }

/-- An environment in which the third episode is needed and nothing stands in the way. -/
def openRss : RssEnv where
  matcher := openMatcher
  visible := fun _ _ => true
  completed := fun _ => false
  loadTmdb := fun m => (m, true)
  seasonTotal := fun _ _ => 0
  subscribeTvEpisodes := fun _ => some [3]
  episodeOffset := fun _ _ => 0
  movieExists := fun _ => false
  missingEpisodes := fun _ _ _ => [3]
  overEditionOk := fun _ _ => true
  rateLimited := fun _ => false
  torrentEpisodes := fun _ => []

/-- What the round files for the episode, and the item it hands to the downloader. -/
def feedFiling (seriesKey : Option Text) : Filing × RssTorrent :=
  let media : MediaInfo := { resolvedItem with beginSeason := some 1, beginEpisode := some 3 }
  let info := subscribedSeries seriesKey
  (openRss.filing media info 1, ⟨feedEpisode, carryOver media info, info, []⟩)

/-- Without a series key the filed season is found again. -/
theorem plain_series_found :
    identityKeysMatch (feedFiling none).1.key
      (.text (mediaSeriesScopeKey (openRss.parsedTorrent (feedFiling none).2))) = true :=
  (filed_key_found_iff openRss [] [subscribedSeries none] [feedEpisode] feedEpisode
    (feedFiling none).1 (feedFiling none).2 (by simp) (by rfl)).2.mpr (by decide)

/-- With a series key the needed episode is filed under a key that no lookup for the item
finds, and the item, which offers that episode, finds nothing that is needed. -/
theorem keyed_series_not_found :
    openRss.verdict [] [subscribedSeries (some (of "series:4f2a"))] feedEpisode =
        .file (feedFiling (some (of "series:4f2a"))).1 (feedFiling (some (of "series:4f2a"))).2 ∧
      (feedFiling (some (of "series:4f2a"))).2 ∈
        (openRss.poll [] [subscribedSeries (some (of "series:4f2a"))] [feedEpisode]).torrents ∧
      ∀ key ∈ (openRss.poll [] [subscribedSeries (some (of "series:4f2a"))] [feedEpisode]).needs.keys,
        identityKeysMatch key (.text (mediaSeriesScopeKey
          (openRss.parsedTorrent (feedFiling (some (of "series:4f2a"))).2))) = false :=
  ⟨by rfl, by decide, by decide⟩

end WolfNas
