import WolfNas.Download.Ranking
import WolfNas.Lib.SortedSet
import WolfNas.Subscribe.RssFeed

/-!
# A batch of downloads

`batch_download` goes through the candidates four times: for the films, for whole seasons,
for single episodes, and for season packs of which only the needed episodes are taken.  Every
candidate it comes to is one turn: the candidate is considered, handed to the downloader if it
is suitable, and what it brings is taken off the needed seasons.  A release may number its episodes
from the first season on, so its numbers are compared with the needed ones after an offset: the
configured one, or one read off the numbers themselves.

## Main definitions

* `inferOffset` — the offset the comparison goes by.
* `matchReleaseEpisodes` — the released episodes that are needed, in both numberings.
* `relativeReleaseEpisodes` — all released episodes as needed ones, where all of them are.
* `Need`, `Batch` — a needed season, and the state of a batch.
* `DownloadEnv` — what a batch calls.
* `Turn`, `Plan` — a turn of the loops, and the download it leads to.
* `DownloadEnv.consider`, `DownloadEnv.download`, `DownloadEnv.settle`, `DownloadEnv.turn` — the
  parts of a turn, and the turn.
* `DownloadEnv.batchDownload` — the batch.
-/

namespace WolfNas

open Text

/-! ## Matching released episodes with needed ones -/

section Matching

/-- `_infer_offset`. -/
def inferOffset (release need : List ℕ) (offset : ℕ) (season : ℤ) : ℕ :=
  match release.min?, need.min?, need.max? with
  | some first, some least, some greatest =>
    if 0 < offset ∨ season ≤ 1 ∨ (∃ e ∈ release, e ∈ need) ∨ first ≤ greatest then offset
    else if 0 < first - least ∧ ∀ e ∈ release, e - (first - least) ∈ need then first - least
    else offset
  | _, _, _ => offset

/-- `match_release_episodes`. -/
def matchReleaseEpisodes (release need : List ℕ) (offset : ℕ) (season : ℤ) :
    List ℕ × List ℕ :=
  let offset := inferOffset release need offset season
  let absolute := release.filter fun e => e ∈ need.map (· + offset)
  if 0 < offset ∧ absolute ≠ [] then
    (sortedSet absolute, sortedSet ((absolute.filter (offset < ·)).map (· - offset)))
  else (sortedSet (release.filter (· ∈ need)), sortedSet (release.filter (· ∈ need)))

/-- `relative_release_episodes`. -/
def relativeReleaseEpisodes (release need : List ℕ) (offset : ℕ) (season : ℤ) :
    Option (List ℕ) :=
  let offset := inferOffset release need offset season
  if release = [] then none
  else if 0 < offset ∧ ∀ e ∈ release, e ∈ need.map (· + offset) then
    some (sortedSet ((release.filter (offset < ·)).map (· - offset)))
  else if ∀ e ∈ release, e ∈ need then some (sortedSet release)
  else none

variable {release need relative : List ℕ} {offset e : ℕ} {season : ℤ}

/-- The episodes a release is taken for are needed ones. -/
theorem mem_need_of_relative (h : relativeReleaseEpisodes release need offset season = some relative)
    (he : e ∈ relative) : e ∈ need := by
  simp only [relativeReleaseEpisodes] at h
  split_ifs at h with hnil hoffset hall
  · obtain rfl := Option.some.inj h
    simp only [mem_sortedSet, List.mem_map, List.mem_filter] at he
    obtain ⟨n, ⟨hn, -⟩, rfl⟩ := he
    obtain ⟨m, hm, hadd⟩ := List.mem_map.mp (hoffset.2 n hn)
    have hsub : n - inferOffset release need offset season = m := by omega
    rwa [hsub]
  · obtain rfl := Option.some.inj h
    exact hall e (by simpa using he)

theorem mem_need_of_match (he : e ∈ (matchReleaseEpisodes release need offset season).2) :
    e ∈ need := by
  simp only [matchReleaseEpisodes] at he
  split_ifs at he with hoffset
  · simp only [mem_sortedSet, List.mem_map, List.mem_filter, decide_eq_true_eq] at he
    obtain ⟨n, ⟨⟨-, m, hm, hadd⟩, -⟩, rfl⟩ := he
    have hsub : n - inferOffset release need offset season = m := by omega
    rwa [hsub]
  · simpa using (List.mem_filter.mp (mem_sortedSet.mp he)).2

end Matching

/-! ## Needs -/

/-- A needed season.  One that is dealt with is dead, and keeps its place. -/
structure Need where
  season : Option ℤ
  episodes : List ℕ
  totalEpisodes : ℕ
  episodeOffset : ℕ := 0
  live : Bool := true
  deriving DecidableEq, Repr

namespace Need

/-- `tv.get("season") or 1`. -/
def number (x : Need) : ℤ := if x.season.getD 0 = 0 then 1 else x.season.getD 0

theorem number_ne_zero (x : Need) : x.number ≠ 0 := by
  rw [number]
  split_ifs with h
  · decide
  · exact h

/-- The seasons of which no episodes are listed. -/
def wholeSeasons (needs : List Need) : List ℤ :=
  (needs.filter fun x => x.live ∧ x.episodes = []).map number

/-- `_get_season_episodes`. -/
def getSeasonEpisodes (needs : List Need) (season : ℕ) : ℕ :=
  match needs.find? fun x => x.live ∧ x.season = some (season : ℤ) with
  | none => 0
  | some x => x.totalEpisodes

/-- A pack of the seasons covers the needed one. -/
def inPack (seasons : List ℕ) (x : Need) : Bool :=
  ∃ cur ∈ seasons, x.season = some (cur : ℤ) ∨ cur = 1 ∧ x.season.getD 0 = 0

/-- The needed seasons without those a pack covers. -/
def dropSeasons (seasons : List ℕ) (needs : List Need) : List Need :=
  needs.map fun x => if x.inPack seasons then { x with live := false } else x

/-- `_update_episodes`: the first needed season of the number is left with the episodes. -/
def updateEpisodes (season : ℤ) (left : List ℕ) : List Need → List Need
  | [] => []
  | x :: needs =>
    if x.live ∧ x.season = some season then
      (if left = [] then { x with live := false } else { x with episodes := left }) :: needs
    else x :: updateEpisodes season left needs

end Need

/-- The download a turn leads to. -/
inductive Plan
  | film (i : ℕ) (name : Text)
  | pack (k : IdValue) (i : ℕ)
  | episode (k : IdValue) (j i : ℕ) (need relative : List ℕ)
  /-- A magnet link, whose files are known after it is added. -/
  | magnet (k : IdValue) (j i : ℕ) (need : List ℕ)
  | unpack (k : IdValue) (j i : ℕ) (need relative : List ℕ)
  deriving DecidableEq, Repr

namespace Plan

/-- The place of the candidate. -/
def place : Plan → ℕ
  | film i _ | pack _ i | episode _ _ i _ _ | magnet _ _ i _ | unpack _ _ i _ _ => i

/-- The download is added paused. -/
def paused : Plan → Bool
  | film _ _ | pack _ _ | episode _ _ _ _ _ => false
  | magnet _ _ _ _ | unpack _ _ _ _ _ => true

end Plan

/-- One call of `download`. -/
structure Attempt where
  plan : Plan
  /-- The candidate as it was handed over. -/
  item : Candidate
  /-- The id of the download; none where it failed. -/
  id : Option Text
  /-- It was added, and is not taken back. -/
  kept : Bool
  /-- The needed episodes it brings; a pack brings its seasons. -/
  brings : List ℕ

/-- The state of a batch. -/
structure Batch where
  /-- The candidates, by their place in the given list. -/
  items : ℕ → Candidate
  /-- `need_tvs`. -/
  needs : IdValue → List Need
  /-- `need_seasons`. -/
  whole : IdValue → Option (List ℤ) := fun _ => none
  /-- `downloaded_names`. -/
  names : List Text := []
  /-- `download_items`. -/
  downloaded : List ℕ := []
  log : List Attempt := []
  /-- The downloads that were taken back. -/
  removed : List Text := []
  /-- `need_tmdbid`. -/
  key : IdValue := .none
  /-- The places of the needed seasons the loop over a series goes through. -/
  slots : List ℕ := []
  /-- The place of `tv`. -/
  tv : ℕ := 0
  /-- `need_episodes`; none where the loop passes a needed season over. -/
  need : Option (List ℕ) := none
  /-- An exception has ended the batch. -/
  raised : Bool := false

/-- What a batch calls. -/
structure DownloadEnv where
  /-- `download_order` is `seeder`. -/
  bySeeders : Bool
  /-- `get_download_url`; none where it raises. -/
  downloadUrl : Text → Option (Option Text)
  /-- `get_torrent_episodes`, which remembers its answers for a batch; none where it raises. -/
  torrentEpisodes : Text → Option (List ℕ)
  /-- `download`, by the number of calls before; none where it fails or raises. -/
  add : ℕ → Candidate → Bool → Option Text
  /-- `get_torrent_episodes_by_tid`; none where it raises. -/
  tidEpisodes : Text → Option (List ℕ)
  /-- `set_files_status` raises. -/
  setFilesFails : Text → Bool
  /-- `start_torrents` raises. -/
  startFails : Text → Bool
  /-- `delete_torrents` raises. -/
  removeFails : Text → Bool

/-- A turn of the loops. -/
inductive Turn
  | film (i : ℕ)
  /-- The loop over the packs for a series begins. -/
  | openSeasons (k : IdValue)
  | pack (i : ℕ)
  /-- The loop over the needed seasons of a series begins. -/
  | openSeries (k : IdValue)
  /-- The loop over the candidates for the episodes of a needed season begins. -/
  | openEpisodes (j : ℕ)
  | episode (i : ℕ)
  /-- The loop over the packs for the episodes of a needed season begins. -/
  | openPacks (j : ℕ)
  | unpack (i : ℕ)
  deriving DecidableEq, Repr

/-- The item with the first and the last of the selected episodes. -/
def Candidate.withEpisodes (c : Candidate) : List ℕ → Candidate
  | [] => c
  | e :: es =>
    { c with media := { c.media with beginEpisode := some e, endEpisode := es.getLast? } }

/-- Equal in all fields; the mark of a failed download is none of them. -/
def Candidate.same (c d : Candidate) : Bool := { c with failed := false } = { d with failed := false }

namespace Batch

variable (st : Batch)

/-- `item in …`, which compares the items. -/
def isIn (i : ℕ) (l : List ℕ) : Bool := ∃ j ∈ l, (st.items j).same (st.items i)

/-- The state with a candidate changed. -/
def setItem (i : ℕ) (c : Candidate) : Batch := { st with items := Function.update st.items i c }

/-- The needed season at a place. -/
def slot (k : IdValue) (j : ℕ) : Need := (st.needs k).getD j ⟨none, [], 0, 0, false⟩

/-- The places of the needed seasons of a series that are left. -/
def liveSlots (k : IdValue) : List ℕ :=
  (List.range (st.needs k).length).filter fun j => (st.slot k j).live

/-- The episodes that a candidate has brought are taken off the needed ones. -/
def takeEpisodes (k : IdValue) (number : ℤ) (need taken : List ℕ) : Batch :=
  let left := need.filter (· ∉ taken)
  { st with
    needs := Function.update st.needs k (Need.updateEpisodes number left (st.needs k))
    need := some left }

end Batch

namespace DownloadEnv

variable (env : DownloadEnv) (st : Batch)

/-! ## Considering a candidate -/

/-- The key of the candidate matches the one of the needed series. -/
def matchesKey (k : IdValue) (c : Candidate) : Bool :=
  identityKeysMatch k (.text (mediaSeriesScopeKey c.media))

/-- `get_torrent_episodes`; no link has no episodes. -/
def episodesOf (url : Option Text) : Option (List ℕ) :=
  if orEmpty url = [] then some [] else env.torrentEpisodes (orEmpty url)

/-- The candidate with its link. -/
def fetchUrl (i : ℕ) : Batch :=
  let c := st.items i
  if orEmpty c.media.enclosure ≠ [] then st
  else match env.downloadUrl c.pageUrl with
    | none => { st with raised := true }
    | some url => st.setItem i { c with media := { c.media with enclosure := url } }

/-- The name a film is known by in a batch. -/
def filmName (c : Candidate) : Text :=
  if mediaSeriesScopeKey c.media = [] then c.media.getTitleString else mediaSeriesScopeKey c.media

/-- A film is downloaded once. -/
def considerFilm (i : ℕ) : Batch × Option Plan :=
  let c := st.items i
  if c.media.type ≠ some .movie ∨ c.failed ∨ filmName c ∈ st.names then (st, none)
  else
    let st := env.fetchUrl st i
    if st.raised then (st, none) else (st, some (.film i (filmName c)))

/-- A pack holds as many episodes as its seasons have; a magnet link of several seasons is
taken as it is. -/
def packCovers (needs : List Need) (c : Candidate) : Option Bool :=
  let seasons := c.media.getSeasonList
  let total := (seasons.map (Need.getSeasonEpisodes needs)).sum
  if seasons.length ≠ 1 ∧ (orEmpty c.media.enclosure).startsWith (of "magnet:") then some true
  else (env.episodesOf c.media.enclosure).map fun episodes =>
    let covered := episodes.dedup.length
    covered ≠ 0 ∧ if total ≠ 0 then total ≤ covered else 2 ≤ covered

/-- The loop of `find_season_packs`. -/
def considerPack (i : ℕ) : Batch × Option Plan :=
  let k := st.key
  match st.whole k with
  | none => (st, none)
  | some whole =>
    let c := st.items i
    if c.media.type = some .movie ∨ c.failed ∨ c.media.getEpisodeList ≠ [] ∨ !matchesKey k c then
      (st, none)
    else
      let st := env.fetchUrl st i
      if st.raised then (st, none)
      else if ∀ s ∈ c.media.getSeasonList, (s : ℤ) ∈ whole then
        match env.packCovers (st.needs k) (st.items i) with
        | none => ({ st with raised := true }, none)
        | some false => (st, none)
        | some true => (st, some (.pack k i))
      else (st, none)

/-- The candidate with these episodes, where all of them are needed. -/
def considerReleased (i : ℕ) (need released : List ℕ) : Batch × Option Plan :=
  let x := st.slot st.key st.tv
  match relativeReleaseEpisodes released need x.episodeOffset x.number with
  | none => (st, none)
  | some relative =>
    (st.setItem i ((st.items i).withEpisodes relative), some (.episode st.key st.tv i need relative))

/-- A candidate whose name gives no episodes; its torrent file is looked into. -/
def considerUnlisted (i : ℕ) (need : List ℕ) : Batch × Option Plan :=
  let st := env.fetchUrl st i
  if st.raised then (st, none)
  else match (st.items i).media.enclosure with
    | none => ({ st with raised := true }, none)
    | some url =>
      if url.startsWith (of "magnet") then (st, none)
      else match env.episodesOf (some url) with
        | none => ({ st with raised := true }, none)
        | some [] => (st, none)
        | some released => considerReleased st i need released

/-- The loop of `download_episodes`. -/
def considerEpisode (i : ℕ) : Batch × Option Plan :=
  match st.need with
  | none => (st, none)
  | some need =>
    let c := st.items i
    if c.media.type = some .movie ∨ !matchesKey st.key c ∨ st.isIn i st.downloaded ∨ c.failed ∨
        c.media.getSeasonList.map Nat.cast ≠ [(st.slot st.key st.tv).number] then
      (st, none)
    else if c.media.getEpisodeList ≠ [] then
      considerReleased st i need c.media.getEpisodeList
    else env.considerUnlisted st i need

/-- The loop of `download_from_season_pack`. -/
def considerUnpack (i : ℕ) : Batch × Option Plan :=
  match st.need with
  | none | some [] => (st, none)
  | some need =>
    let c := st.items i
    let x := st.slot st.key st.tv
    if c.media.type = some .movie ∨ st.isIn i st.downloaded ∨ c.failed ∨ !matchesKey st.key c ∨
        (c.media.getEpisodeList ≠ [] ∧
          (matchReleaseEpisodes c.media.getEpisodeList need x.episodeOffset x.number).1 = []) ∨
        c.media.getSeasonList.map Nat.cast ≠ [x.number] then
      (st, none)
    else
      let st := env.fetchUrl st i
      if st.raised then (st, none)
      else if (orEmpty (st.items i).media.enclosure).startsWith (of "magnet:") then
        (st, some (.magnet st.key st.tv i need))
      else match env.episodesOf (st.items i).media.enclosure with
        | none => ({ st with raised := true }, none)
        | some released =>
          let found := matchReleaseEpisodes released need x.episodeOffset 1
          if found.1 = [] then (st, none) else (st, some (.unpack st.key st.tv i need found.2))

/-- What a turn does before a download. -/
def consider : Turn → Batch × Option Plan
  | .film i => env.considerFilm st i
  | .openSeasons k => ({ st with key := k, need := none }, none)
  | .pack i => env.considerPack st i
  | .openSeries k => ({ st with key := k, slots := st.liveSlots k, need := none }, none)
  | .openEpisodes j =>
    let x := st.slot st.key j
    ({ st with
      tv := j
      need :=
        if j ∉ st.slots then none
        else if x.episodes ≠ [] then some x.episodes
        else if x.totalEpisodes = 0 then none
        else some (List.range' 1 x.totalEpisodes) }, none)
  | .episode i => env.considerEpisode st i
  | .openPacks j =>
    let x := st.slot st.key j
    ({ st with
      tv := j
      need := if j ∉ st.slots ∨ x.episodes = [] then none else some x.episodes }, none)
  | .unpack i => env.considerUnpack st i

/-! ## The download and what follows -/

/-- The needed files of a magnet link, once it is added: as they are numbered in it, and in the
season.  None where they cannot be read; nothing is selected where it has no files. -/
def magnetFiles (k : IdValue) (j : ℕ) (need : List ℕ) (id : Text) :
    Option (Option (List ℕ × List ℕ)) :=
  (env.tidEpisodes id).map fun released =>
    if released = [] then none
    else some (matchReleaseEpisodes released need (st.slot k j).episodeOffset 1)

/-- A download that was added stays: an error after it was added takes it back. -/
def keeps (id : Text) : Plan → Bool
  | .film _ _ | .pack _ _ | .episode _ _ _ _ _ => true
  | .magnet k j _ need => match env.magnetFiles st k j need id with
    | none => false
    | some none => !env.startFails id
    | some (some found) => found.1 ≠ [] ∧ !env.setFilesFails id ∧ !env.startFails id
  | .unpack _ _ _ _ _ => !env.setFilesFails id && !env.startFails id

/-- The needed episodes a download that was added brings. -/
def brought (id : Text) : Plan → List ℕ
  | .film _ _ | .pack _ _ => []
  | .episode _ _ _ _ relative | .unpack _ _ _ _ relative => relative
  | .magnet k j _ need => match env.magnetFiles st k j need id with
    | some (some found) => found.2
    | _ => []

/-- The call of `download` for a plan. -/
def attempt (p : Plan) : Attempt :=
  let c := st.items p.place
  let id := env.add st.log.length c p.paused
  { plan := p
    item := c
    id := id
    kept := id.any fun id => env.keeps st id p
    brings := (id.map fun id => env.brought st id p).getD [] }

/-- `_download_callback`. -/
def download (p : Plan) : Batch × Option Text :=
  let c := st.items p.place
  let a := env.attempt st p
  let st := { st with log := st.log ++ [a] }
  match a.id with
  | none => (st.setItem p.place { c with failed := true }, none)
  | some id =>
    ({ st with
      downloaded :=
        if st.isIn p.place st.downloaded then st.downloaded else st.downloaded ++ [p.place] }, id)

/-- What a download that was added takes off the needed seasons. -/
def credit (id : Text) : Plan → Batch
  | .film _ name => { st with names := name :: st.names }
  | .pack k i =>
    let seasons := (st.items i).media.getSeasonList
    { st with
      whole := Function.update st.whole k ((st.whole k).map fun whole =>
        whole.filter fun s => s ∉ seasons.map Nat.cast)
      needs := Function.update st.needs k (Need.dropSeasons seasons (st.needs k)) }
  | .episode k j _ need relative => st.takeEpisodes k (st.slot k j).number need relative
  | .magnet k j i need => match env.magnetFiles st k j need id with
    | none | some none => st
    | some (some found) =>
      if found.1 = [] then st
      else (st.setItem i ((st.items i).withEpisodes found.2)).takeEpisodes k (st.slot k j).number
        need found.2
  | .unpack k j i need relative =>
    (st.setItem i ((st.items i).withEpisodes relative)).takeEpisodes k (st.slot k j).number need
      relative

/-- What follows a download that was added; `_rollback` where it does not stay. -/
def settle (id : Text) (p : Plan) : Batch :=
  let after := env.credit st id p
  if env.keeps st id p ∨ env.removeFails id then after
  else { after with removed := after.removed ++ [id] }

/-- A turn; after an exception there are none. -/
def turn (t : Turn) : Batch :=
  if st.raised then st
  else match env.consider st t with
    | (st, none) => st
    | (st, some p) => match env.download st p with
      | (st, none) => st
      | (st, some id) => env.settle st id p

/-! ## The batch -/

/-- The loops over the series, their needed seasons and the candidates. -/
def seasonTurns (keys : List IdValue) (slots : IdValue → ℕ) (list : List ℕ) (opened : ℕ → Turn)
    (body : ℕ → Turn) : List Turn :=
  keys.flatMap fun k => .openSeries k ::
    (List.range (slots k)).flatMap fun j => opened j :: list.map body

/-- The turns of the four loops. -/
def turns (keys : List IdValue) (slots : IdValue → ℕ) (list : List ℕ) : List Turn :=
  list.map .film ++ (keys.flatMap fun k => .openSeasons k :: list.map .pack) ++
    seasonTurns keys slots list .openEpisodes .episode ++
    seasonTurns keys slots list .openPacks .unpack

end DownloadEnv

/-- A needed season as it is handed to the downloader. -/
def NeedEntry.toNeed (x : NeedEntry) : Need :=
  ⟨some x.season, x.episodes, x.totalEpisodes, x.episodeOffset, true⟩

/-- The state before a batch, with `build_need_seasons`. -/
def Batch.start (needs : Needs) (items : List Candidate) : Batch :=
  let table := fun k => ((needs.get k).getD []).map NeedEntry.toNeed
  { items := fun i => items.getD i { media := {} }
    needs := table
    whole := fun k =>
      let whole := Need.wholeSeasons (table k)
      if whole = [] then none else some whole }

namespace DownloadEnv

variable (env : DownloadEnv)

/-- The candidates the strategies go through. -/
def downloadList (items : List Candidate) : List ℕ :=
  getDownloadList env.bySeeders 8 (fun i => items.getD i { media := {} }) (List.range items.length)

/-- `batch_download`. -/
def batchDownload (needs : Needs) (items : List Candidate) : Batch :=
  (turns needs.keys (fun k => ((needs.get k).getD []).length) (env.downloadList items)).foldl
    env.turn (Batch.start needs items)

end DownloadEnv

end WolfNas
