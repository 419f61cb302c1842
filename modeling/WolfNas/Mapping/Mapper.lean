import WolfNas.Lib.Text
import Mathlib.Data.List.Sort
import Mathlib.Logic.Function.Basic
import Mathlib.Data.List.Dedup

/-!
# The mapper of season and episode numbers

A file may be numbered by seasons that TMDB keeps in one.  The mapper infers the seasons from the
dates on which the episodes were aired, as blocks of consecutive episodes, and turns a season and
an episode, or an absolute number, into what TMDB has.  What it found out about a show it keeps
under three keys.

## Main definitions

* `TmdbSeason`, `TmdbEpisode`, `TmdbData` — what TMDB says about a show.
* `inferBlocks` — `_fetch_blocks` without its cache.
* `ShowCache`, `EpisodeMapper` — what the mapper keeps of a show, and of all.
* `ShowCache.map`, `ShowCache.mapAbsolute`, `ShowCache.mapAuto`, `ShowCache.invalidate` — the
  queries about a show.
* `EpisodeMapper.mapBatch` — the queries about several.
-/

namespace WolfNas

open Text

/-! ## Dates -/

/-- The days of a month. -/
def daysInMonth (year month : ℕ) : ℕ :=
  if month = 2 then if year % 4 = 0 ∧ (year % 100 ≠ 0 ∨ year % 400 = 0) then 29 else 28
  else if month ∈ [4, 6, 9, 11] then 30
  else 31

/-- The number of a day, counted from the first of year 1. -/
def dayOrdinal (year month day : ℕ) : ℤ :=
  let before := year - 1
  365 * before + before / 4 - before / 100 + before / 400 +
    ((List.range (month - 1)).map fun m => daysInMonth year (m + 1)).sum + day

/-- A month or a day of a date: one or two digits, from 1 on. -/
def dateField (s : Text) (last : ℕ) : Option ℕ :=
  if isDigit s ∧ s.length ≤ 2 ∧ 1 ≤ toNat s ∧ toNat s ≤ last then some (toNat s) else none

/-- `_parse_date`, as the number of the day. -/
def parseDate (date : Text) : Option ℤ :=
  match date.splitOn '-' with
  | [year, month, day] =>
    if isDigit year ∧ year.length = 4 ∧ 1 ≤ toNat year then do
      let m ← dateField month 12
      -- a day below ten may have a blank in place of its zero
      let d ← dateField (if day.length = 2 ∧ day.head? = some ' ' then day.tail else day)
        (daysInMonth (toNat year) m)
      some (dayOrdinal (toNat year) m d)
    else none
  | _ => none

/-! ## What TMDB says -/

/-- A season in the details of a show. -/
structure TmdbSeason where
  seasonNumber : ℤ
  episodeCount : ℤ
  deriving DecidableEq

/-- An episode of a season; `tmdbSeason` is the `_tmdb_season` that the mapper adds. -/
structure TmdbEpisode where
  episodeNumber : ℤ
  airDate : Text := []
  episodeType : Text := []
  tmdbSeason : ℤ := 0
  deriving DecidableEq

/-- What lookups find.  The details of a show are none where they are not found or the lookup
fails, the episodes of a season where the lookup fails. -/
structure TmdbData where
  info : ℤ → Option (List TmdbSeason) := fun _ => none
  episodes : ℤ → ℤ → Option (List TmdbEpisode) := fun _ _ => some []

/-- The seasons that are no specials. -/
def normalSeasons (seasons : List TmdbSeason) : List TmdbSeason :=
  seasons.filter fun s => 0 < s.seasonNumber

/-- The order of the seasons by their numbers. -/
def TmdbSeason.before (s t : TmdbSeason) : Prop := s.seasonNumber ≤ t.seasonNumber

instance : DecidableRel TmdbSeason.before := fun _ _ => inferInstanceAs (Decidable (_ ≤ _))

/-- The seasons of a show that are no specials, by their numbers. -/
def sortedSeasons (seasons : List TmdbSeason) : List TmdbSeason :=
  (normalSeasons seasons).insertionSort TmdbSeason.before

/-- The order of the episodes by their seasons and numbers. -/
def TmdbEpisode.before (e f : TmdbEpisode) : Prop :=
  e.tmdbSeason < f.tmdbSeason ∨ e.tmdbSeason = f.tmdbSeason ∧ e.episodeNumber ≤ f.episodeNumber

instance : DecidableRel TmdbEpisode.before := fun _ _ => inferInstanceAs (Decidable (_ ∨ _))

/-- The episodes of some seasons; none where a lookup fails. -/
def collectEpisodes (tmdb : TmdbData) (tmdbId : ℤ) : List TmdbSeason → Option (List TmdbEpisode)
  | [] => some []
  | s :: seasons => do
    let eps ← tmdb.episodes tmdbId s.seasonNumber
    let rest ← collectEpisodes tmdb tmdbId seasons
    some ((eps.map fun ep => { ep with tmdbSeason := s.seasonNumber }) ++ rest)

/-! ## Blocks -/

/-- A block: the number of its season, and of its first and its last episode. -/
structure SeasonBlock where
  season : ℕ
  startEp : ℤ
  endEp : ℤ
  deriving DecidableEq

/-- `EPISODE_MAPPER_SEASON_GAP_DAYS`. -/
def episodeMapperSeasonGapDays : ℤ := 90

/-- `EPISODE_MAPPER_SEASON_GAP_FORCE_DAYS`. -/
def episodeMapperSeasonGapForceDays : ℤ := 180

/-- `EPISODE_MAPPER_MIN_BLOCK_LENGTH`. -/
def episodeMapperMinBlockLength : ℕ := 20

/-- `EPISODE_MAPPER_MIN_TOTAL_EPISODES`. -/
def episodeMapperMinTotalEpisodes : ℤ := 30

/-- `should_split`, after a block of `length` episodes up to `prev`. -/
def shouldSplit (prev curr : TmdbEpisode) (length : ℕ) : Bool :=
  if prev.episodeType ∈ [of "finale", of "mid_season", of "mid_season_finale"] then true
  else
    match parseDate prev.airDate, parseDate curr.airDate with
    | some before, some after =>
      let gap := after - before
      episodeMapperSeasonGapForceDays < gap ||
        (episodeMapperSeasonGapDays < gap && episodeMapperMinBlockLength ≤ length)
    | _, _ => false

/-- The loop that cuts the episodes into blocks: the current one has the season `curSeason`, began
at `startEp` and has `length` episodes up to `prev`. -/
def cutBlocks (curSeason : ℕ) (startEp : ℤ) (length : ℕ) (prev : TmdbEpisode) :
    List TmdbEpisode → List SeasonBlock
  | [] => [⟨curSeason, startEp, prev.episodeNumber⟩]
  | curr :: eps =>
    if shouldSplit prev curr length then
      ⟨curSeason, startEp, prev.episodeNumber⟩ ::
        cutBlocks (curSeason + 1) curr.episodeNumber 1 curr eps
    else cutBlocks curSeason startEp (length + 1) curr eps

/-- The blocks begin where the seasons of TMDB do, as far as both go; `i` is the index of the first
of `seasons`, `cumulative` the number at which it begins. -/
def aligned (blocks : List SeasonBlock) (i : ℕ) (cumulative : ℤ) : List TmdbSeason → Bool
  | [] => true
  | s :: seasons =>
    if s.episodeCount ≤ 0 then aligned blocks (i + 1) cumulative seasons
    else if (blocks[i]?).any fun b => b.startEp ≠ cumulative then false
    else aligned blocks (i + 1) (cumulative + s.episodeCount) seasons

/-- The episodes of a show in the order in which they are cut into blocks; none where the show has
too few, or a lookup fails. -/
def orderedEpisodes (tmdb : TmdbData) (tmdbId : ℤ) : Option (List TmdbEpisode) := do
  let seasons ← tmdb.info tmdbId
  let normal := normalSeasons seasons
  if (normal.map TmdbSeason.episodeCount).sum < episodeMapperMinTotalEpisodes then none
  else
    let eps ← collectEpisodes tmdb tmdbId normal
    if eps.length < 2 then none else some (eps.insertionSort TmdbEpisode.before)

/-- `_fetch_blocks` without its cache: none where nothing is to be mapped. -/
def inferBlocks (tmdb : TmdbData) (tmdbId : ℤ) : Option (List SeasonBlock) :=
  match orderedEpisodes tmdb tmdbId with
  | none | some [] => none
  | some (first :: eps) =>
    let normal := normalSeasons ((tmdb.info tmdbId).getD [])
    let blocks := cutBlocks 1 first.episodeNumber 1 first eps
    let maxTmdbSeason := (normal.map TmdbSeason.seasonNumber).foldr max 0
    if (blocks.length : ℤ) ≤ maxTmdbSeason ∧ aligned blocks 0 1 normal then none else some blocks

/-! ## The mapper -/

/-- A season and an episode of TMDB, or a range. -/
inductive MappedNumbers
  | single (season episode : ℤ)
  | range (season episode endSeason endEpisode : ℤ)
  deriving DecidableEq

/-- What `_blocks` holds of a show: under its id, under `abs:` with its id, and under `seasons:`
with its id. -/
structure ShowCache where
  blocks : Option (List SeasonBlock) := none
  absolute : Option (List TmdbSeason) := none
  seasons : Option (List TmdbSeason) := none
  deriving DecidableEq

namespace ShowCache

variable (c : ShowCache) (tmdb : TmdbData) (tmdbId : ℤ)

/-- `_fetch_blocks`. -/
def fetchBlocks : ShowCache × Option (List SeasonBlock) :=
  match c.blocks with
  | some blocks => (c, some blocks)
  | none =>
    match inferBlocks tmdb tmdbId with
    | none => (c, none)
    | some blocks => ({ c with blocks := some blocks }, some blocks)

/-- What `map` makes of a season and an episode that are given. -/
def mapInto (blocks : List SeasonBlock) (season episode endEp : ℤ) : Option MappedNumbers :=
  match blocks[season.toNat - 1]? with
  | none => none
  | some block =>
    let target := block.startEp + episode - 1
    if block.endEp < target then none
    else if endEp = 0 ∨ endEp = episode then some (.single 1 target)
    else some (.range 1 target 1 (min (block.startEp + endEp - 1) block.endEp))

/-- `map`.  A number that is not given is 0, which the code treats the same way. -/
def map (season episode endEp : ℤ) : ShowCache × Option MappedNumbers :=
  if season < 1 ∨ episode = 0 then (c, none)
  else
    let (c', blocks) := c.fetchBlocks tmdb tmdbId
    (c', blocks.bind fun blocks => mapInto blocks season episode endEp)

/-- `_find`: the season and the episode of an absolute number, after `cum` episodes. -/
def find (seasons : List TmdbSeason) (cum absEp : ℤ) : Option (ℤ × ℤ) :=
  match seasons with
  | [] => none
  | s :: seasons =>
    if cum + 1 ≤ absEp ∧ absEp ≤ cum + s.episodeCount then
      some (s.seasonNumber, absEp - (cum + 1) + 1)
    else find seasons (cum + s.episodeCount) absEp

/-- What `map_absolute` makes of the seasons. -/
def findAbsolute (seasons : List TmdbSeason) (episode endEpisode : ℤ) : Option MappedNumbers :=
  match find seasons 0 episode with
  | none => none
  | some (sn, ep) =>
    if endEpisode = 0 ∨ endEpisode = episode then some (.single sn ep)
    else
      match find seasons 0 endEpisode with
      | none => some (.single sn ep)
      | some (endSn, endEp) => some (.range sn ep endSn endEp)

/-- `map_absolute`. -/
def mapAbsolute (episode endEpisode : ℤ) : ShowCache × Option MappedNumbers :=
  if episode < 1 then (c, none)
  else
    match c.absolute.getD [] with
    | s :: seasons => (c, findAbsolute (s :: seasons) episode endEpisode)
    | [] =>
      match sortedSeasons ((tmdb.info tmdbId).getD []) with
      | [] => (c, none)
      | s :: seasons =>
        ({ c with absolute := some (s :: seasons) },
          findAbsolute (s :: seasons) episode endEpisode)

/-- The seasons that `map_auto` finds under `abs:`, or looks up and puts there. -/
def absoluteSeasons : ShowCache × List TmdbSeason :=
  match c.absolute.getD [] with
  | s :: seasons => (c, s :: seasons)
  | [] =>
    match tmdb.info tmdbId with
    | none => (c, [])
    | some info => ({ c with absolute := some (sortedSeasons info) }, sortedSeasons info)

/-- The seasons that `map_auto` finds under `seasons:`, or looks up and puts there. -/
def packSeasons : ShowCache × List TmdbSeason :=
  match c.seasons.getD [] with
  | s :: seasons => (c, s :: seasons)
  | [] =>
    match tmdb.info tmdbId with
    | none => (c, [])
    | some info => ({ c with seasons := some (sortedSeasons info) }, sortedSeasons info)

/-- The first season of a number has an episode. -/
def hasEpisode (seasons : List TmdbSeason) (season episode : ℤ) : Bool :=
  (seasons.find? fun s => s.seasonNumber = season).any fun s =>
    1 ≤ episode ∧ episode ≤ s.episodeCount

/-- `map_auto` for the pack of a season. -/
def mapPack (season : ℤ) : ShowCache × Option MappedNumbers :=
  let (c', seasons) := c.packSeasons tmdb tmdbId
  if seasons.any fun s => s.seasonNumber = season then (c', none)
  else
    let (c'', blocks) := c'.fetchBlocks tmdb tmdbId
    (c'', blocks.bind fun blocks => if season ≤ blocks.length then some (.single 1 0) else none)

/-- `map_auto`. -/
def mapAuto (season episode endEp : ℤ) : ShowCache × Option MappedNumbers :=
  if episode < 1 then
    if 1 < season then c.mapPack tmdb tmdbId season else (c, none)
  else
    let (c', seasons) := c.absoluteSeasons tmdb tmdbId
    if season = 0 ∨ season = 1 ∨ 26 < episode then
      if season ≠ 0 ∧ hasEpisode seasons season episode then (c', none)
      else c'.mapAbsolute tmdb tmdbId episode endEp
    else if hasEpisode seasons season episode then (c', none)
    else c'.map tmdb tmdbId season episode endEp

/-- `invalidate`. -/
def invalidate : ShowCache := { c with blocks := none, absolute := none }

end ShowCache

/-- `EpisodeMapper`. -/
structure EpisodeMapper where
  shows : ℤ → ShowCache := fun _ => {}

/-- An item of a batch.  A number that is not given is 0. -/
structure BatchItem where
  tmdbId : ℤ
  season : ℤ
  episode : ℤ
  endEpisode : ℤ := 0
  deriving DecidableEq

namespace EpisodeMapper

variable (m : EpisodeMapper) (tmdb : TmdbData)

/-- What a query does to what is kept of its show. -/
def onShow {α : Type} (tmdbId : ℤ) (query : ShowCache → ShowCache × α) : EpisodeMapper × α :=
  (⟨Function.update m.shows tmdbId (query (m.shows tmdbId)).1⟩, (query (m.shows tmdbId)).2)

/-- `tmdb_ids_blocks`. -/
def blockIds (items : List BatchItem) : List ℤ :=
  ((items.filter fun i => i.tmdbId ≠ 0 ∧ (m.shows i.tmdbId).blocks = none ∧ 1 < i.season).map
    BatchItem.tmdbId).dedup

/-- `tmdb_ids_abs`. -/
def absoluteIds (items : List BatchItem) : List ℤ :=
  ((items.filter fun i => i.tmdbId ≠ 0 ∧ (m.shows i.tmdbId).absolute = none ∧
    (i.season = 0 ∨ i.season = 1 ∨ 26 < i.episode)).map BatchItem.tmdbId).dedup

/-- The queries that `map_batch` makes ahead.  Those of one pool are of distinct shows. -/
def prefetch (items : List BatchItem) : EpisodeMapper :=
  let fetched := (m.blockIds items).foldl
    (fun m id => (m.onShow id fun c => c.fetchBlocks tmdb id).1) m
  (m.absoluteIds items).foldl
    (fun m id => (m.onShow id fun c => c.mapAbsolute tmdb id 1 0).1) fetched

/-- The answer to an item of a batch. -/
def mapItem (i : BatchItem) : EpisodeMapper × Option MappedNumbers :=
  m.onShow i.tmdbId fun c => c.mapAuto tmdb i.tmdbId i.season i.episode i.endEpisode

/-- The items of a batch, one after another. -/
def mapItems (m : EpisodeMapper) :
    List BatchItem → EpisodeMapper × List (ℤ × Option MappedNumbers)
  | [] => (m, [])
  | i :: items =>
    let next := m.mapItem tmdb i
    let rest := mapItems next.1 items
    (rest.1, (i.tmdbId, next.2) :: rest.2)

/-- `map_batch`, with the show of each answer. -/
def mapBatch (items : List BatchItem) : EpisodeMapper × List (ℤ × Option MappedNumbers) :=
  mapItems tmdb (m.prefetch tmdb items) items

end EpisodeMapper

end WolfNas
