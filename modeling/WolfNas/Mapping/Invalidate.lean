import WolfNas.Mapping.Queries

/-!
# What `invalidate` leaves

`invalidate` forgets the blocks of a show and the seasons under `abs:`.  The seasons that the query
for the pack of a season puts under `seasons:` stay, and answer such queries for good.

## Main definitions

* `MapperWorld.FreshAbout` — from here on, the queries about a show are answered as by a new
  mapper.
* `MapperQuery.AsksPack` — a query for the pack of a season of a show.

## Main results

* `MapperWorld.freshAbout_invalidate_iff` — the worlds that `invalidate` makes new about a show.
* `invalidate_fresh_iff` — the histories after which it does.
-/

namespace WolfNas

open Text

/-! ## What stands under `seasons:` -/

/-- Nothing stands under `seasons:`, or an empty list. -/
def ShowCache.NoPack (c : ShowCache) : Prop := c.seasons.getD [] = []

/-- TMDB has a season of a show that is no special. -/
def TmdbData.HasSeasons (tmdb : TmdbData) (tmdbId : ℤ) : Prop :=
  normalSeasons ((tmdb.info tmdbId).getD []) ≠ []

theorem sortedSeasons_eq_nil {seasons : List TmdbSeason} :
    sortedSeasons seasons = [] ↔ normalSeasons seasons = [] := by
  rw [sortedSeasons, ← List.length_eq_zero_iff, List.length_insertionSort, List.length_eq_zero_iff]

namespace ShowCache

variable {c : ShowCache} {tmdb : TmdbData} {tmdbId season episode endEp : ℤ}

@[simp] theorem seasons_fetchBlocks : (c.fetchBlocks tmdb tmdbId).1.seasons = c.seasons := by
  simp only [fetchBlocks]
  split
  · rfl
  · split <;> rfl

@[simp] theorem seasons_absoluteSeasons :
    (c.absoluteSeasons tmdb tmdbId).1.seasons = c.seasons := by
  simp only [absoluteSeasons]
  split
  · rfl
  · split <;> rfl

@[simp] theorem seasons_mapAbsolute :
    (c.mapAbsolute tmdb tmdbId episode endEp).1.seasons = c.seasons := by
  simp only [mapAbsolute]
  split_ifs
  · rfl
  · split
    · rfl
    · split <;> rfl

@[simp] theorem seasons_map : (c.map tmdb tmdbId season episode endEp).1.seasons = c.seasons := by
  simp only [map]
  split_ifs
  · rfl
  · exact seasons_fetchBlocks

/-- The query for a pack puts there what TMDB has. -/
theorem noPack_packSeasons :
    (c.packSeasons tmdb tmdbId).1.NoPack ↔ c.NoPack ∧ ¬tmdb.HasSeasons tmdbId := by
  simp only [NoPack, packSeasons, TmdbData.HasSeasons, not_not]
  cases hc : c.seasons.getD [] with
  | cons s seasons => simp [hc]
  | nil =>
    cases hinfo : tmdb.info tmdbId with
    | none => simp [hc, normalSeasons]
    | some info => simp [sortedSeasons_eq_nil]

theorem noPack_mapAuto : (c.mapAuto tmdb tmdbId season episode endEp).1.NoPack ↔
    c.NoPack ∧ (1 < season → episode < 1 → ¬tmdb.HasSeasons tmdbId) := by
  by_cases hepisode : episode < 1
  · by_cases hseason : 1 < season
    · have hpack : (c.mapPack tmdb tmdbId season).1.seasons =
          (c.packSeasons tmdb tmdbId).1.seasons := by
        simp only [mapPack]
        split_ifs
        · rfl
        · exact seasons_fetchBlocks
      rw [mapAuto, if_pos hepisode, if_pos hseason, NoPack, hpack]
      simp [hepisode, hseason, ← NoPack.eq_1, noPack_packSeasons]
    · simp [mapAuto, hepisode, hseason]
  · have hseasons : (c.mapAuto tmdb tmdbId season episode endEp).1.seasons = c.seasons := by
      simp only [mapAuto, if_neg hepisode]
      split_ifs <;> simp
    rw [NoPack, hseasons]
    simp [NoPack, hepisode]

end ShowCache

/-- A query for the pack of a season of a show. -/
def MapperQuery.AsksPack (tmdbId : ℤ) : MapperQuery → Prop
  | .mapAuto id season episode _ => id = tmdbId ∧ 1 < season ∧ episode < 1
  | .mapBatch items => ∃ i ∈ items, i.tmdbId = tmdbId ∧ 1 < i.season ∧ i.episode < 1
  | _ => False

namespace EpisodeMapper

variable {m : EpisodeMapper} {tmdb : TmdbData} {id : ℤ}

/-- What a query that leaves `seasons:` alone leaves there. -/
theorem noPack_onShow_of_eq {α : Type} {tmdbId : ℤ} {query : ShowCache → ShowCache × α}
    (h : ∀ c, (query c).1.seasons = c.seasons) :
    ((m.onShow tmdbId query).1.shows id).NoPack ↔ (m.shows id).NoPack := by
  by_cases hid : id = tmdbId
  · subst hid
    simp [ShowCache.NoPack, h]
  · rw [shows_onShow_of_ne hid]

theorem noPack_mapAuto {tmdbId season episode endEp : ℤ} :
    ((m.onShow tmdbId fun c => c.mapAuto tmdb tmdbId season episode endEp).1.shows id).NoPack ↔
      (m.shows id).NoPack ∧
        (tmdbId = id → 1 < season → episode < 1 → ¬tmdb.HasSeasons id) := by
  by_cases hid : id = tmdbId
  · subst hid
    simp [ShowCache.noPack_mapAuto]
  · simp [shows_onShow_of_ne hid, Ne.symm hid]

theorem noPack_prefetch {items : List BatchItem} :
    ((m.prefetch tmdb items).shows id).NoPack ↔ (m.shows id).NoPack := by
  rw [shows_prefetch, ShowCache.NoPack, ShowCache.NoPack]
  dsimp only
  split_ifs <;> simp

theorem noPack_mapItems {items : List BatchItem} :
    ((mapItems tmdb m items).1.shows id).NoPack ↔ (m.shows id).NoPack ∧
      ∀ i ∈ items, i.tmdbId = id → 1 < i.season → i.episode < 1 → ¬tmdb.HasSeasons id := by
  induction items generalizing m with
  | nil => simp [mapItems]
  | cons i items ih =>
    rw [mapItems, List.forall_mem_cons, ← and_assoc, ← noPack_mapAuto]
    exact ih

theorem noPack_ask {q : MapperQuery} : ((q.ask m tmdb).1.shows id).NoPack ↔
    (m.shows id).NoPack ∧ (q.AsksPack id → ¬tmdb.HasSeasons id) := by
  cases q with
  | map tmdbId season episode endEp =>
    have hsame : ((m.onShow tmdbId fun c => c.map tmdb tmdbId season episode endEp).1.shows
        id).NoPack ↔ (m.shows id).NoPack := noPack_onShow_of_eq fun _ => ShowCache.seasons_map
    exact hsame.trans ⟨fun h => ⟨h, fun hasks => hasks.elim⟩, And.left⟩
  | mapAuto tmdbId season episode endEp =>
    refine noPack_mapAuto.trans (and_congr_right fun _ => ?_)
    simp [MapperQuery.AsksPack]
  | mapAbsolute tmdbId episode endEpisode =>
    have hsame : ((m.onShow tmdbId fun c => c.mapAbsolute tmdb tmdbId episode endEpisode).1.shows
        id).NoPack ↔ (m.shows id).NoPack :=
      noPack_onShow_of_eq fun _ => ShowCache.seasons_mapAbsolute
    exact hsame.trans ⟨fun h => ⟨h, fun hasks => hasks.elim⟩, And.left⟩
  | mapBatch items =>
    refine noPack_mapItems.trans (and_congr noPack_prefetch ?_)
    simp [MapperQuery.AsksPack]

end EpisodeMapper

/-! ## Two answers of TMDB -/

/-- TMDB without a second season, where the marks of the episodes make two blocks. -/
def oneSeasonData : TmdbData where
  info _ := some [⟨1, 40⟩]
  episodes _ _ := some [{ episodeNumber := 1, episodeType := of "finale" }, { episodeNumber := 2 }]

/-- TMDB with a second season, where they make four. -/
def twoSeasonData : TmdbData where
  info _ := some [⟨1, 40⟩, ⟨2, 2⟩]
  episodes _ _ := some [{ episodeNumber := 1, episodeType := of "finale" },
    { episodeNumber := 2, episodeType := of "finale" }]

theorem inferBlocks_oneSeasonData (tmdbId : ℤ) :
    inferBlocks oneSeasonData tmdbId = some [⟨1, 1, 1⟩, ⟨2, 2, 2⟩] :=
  (rfl : _ = inferBlocks oneSeasonData 0).trans (by decide)

theorem inferBlocks_twoSeasonData (tmdbId : ℤ) :
    inferBlocks twoSeasonData tmdbId = some [⟨1, 1, 1⟩, ⟨2, 2, 2⟩, ⟨3, 1, 1⟩, ⟨4, 2, 2⟩] :=
  (rfl : _ = inferBlocks twoSeasonData 0).trans (by decide)

namespace ShowCache

variable {tmdbId : ℤ}

/-- What a new mapper answers to the query for the pack of season 2. -/
theorem mapPack_new_oneSeasonData :
    (({} : ShowCache).mapPack oneSeasonData tmdbId 2).2 = some (.single 1 0) := by
  have hpack : ({} : ShowCache).packSeasons oneSeasonData tmdbId =
      ({ seasons := some [⟨1, 40⟩] }, [⟨1, 40⟩]) := rfl
  simp [mapPack, hpack, fetchBlocks, inferBlocks_oneSeasonData]

theorem mapPack_new_twoSeasonData :
    (({} : ShowCache).mapPack twoSeasonData tmdbId 2).2 = none := by
  have hpack : ({} : ShowCache).packSeasons twoSeasonData tmdbId =
      ({ seasons := some [⟨1, 40⟩, ⟨2, 2⟩] }, [⟨1, 40⟩, ⟨2, 2⟩]) := rfl
  simp [mapPack, hpack]

/-- A mapper that keeps seasons answers by them: season 2 is found among them, or is taken from
the blocks whatever TMDB has. -/
theorem mapPack_invalidate_of_any {c : ShowCache} {tmdb : TmdbData}
    (h : (c.seasons.getD []).any (fun s => s.seasonNumber = 2) = true) :
    (c.invalidate.mapPack tmdb tmdbId 2).2 = none := by
  cases hc : c.seasons.getD [] with
  | nil =>
    rw [hc] at h
    cases h
  | cons s seasons =>
    have hpack : c.invalidate.packSeasons tmdb tmdbId = (c.invalidate, s :: seasons) := by
      simp only [packSeasons, invalidate, hc]
    rw [hc] at h
    simp only [mapPack, hpack, if_pos h]

theorem mapPack_invalidate_of_not_any {c : ShowCache} (hc : ¬c.NoPack)
    (h : ¬(c.seasons.getD []).any (fun s => s.seasonNumber = 2) = true) :
    (c.invalidate.mapPack twoSeasonData tmdbId 2).2 = some (.single 1 0) := by
  cases hs : c.seasons.getD [] with
  | nil => exact absurd hs hc
  | cons s seasons =>
    have hpack : c.invalidate.packSeasons twoSeasonData tmdbId = (c.invalidate, s :: seasons) := by
      simp only [packSeasons, invalidate, hs]
    rw [hs] at h
    simp only [mapPack, hpack, if_neg h]
    simp [fetchBlocks, invalidate, inferBlocks_twoSeasonData]

end ShowCache

/-! ## Fresh answers -/

namespace MapperWorld

variable {w : MapperWorld} {tmdbId : ℤ}

/-- From here on, whatever happens, the queries about a show are answered as by a new mapper. -/
def FreshAbout (w : MapperWorld) (tmdbId : ℤ) : Prop :=
  ∀ events, w.answersAbout tmdbId events =
    { w with mapper := {} : MapperWorld }.answersAbout tmdbId events

/-- TMDB changes, and then the pack of season 2 is asked for. -/
def packAfterChange (tmdbId : ℤ) (tmdb : TmdbData) : List MapperEvent :=
  [.change tmdb, .query (.mapAuto tmdbId 2 0 0)]

theorem answersAbout_packAfterChange {tmdb : TmdbData} :
    w.answersAbout tmdbId (packAfterChange tmdbId tmdb) =
      [(tmdbId, ((w.mapper.shows tmdbId).mapPack tmdb tmdbId 2).2)] := by
  simp [answersAbout, packAfterChange, Run.trace, answers, step, MapperQuery.ask, oneAnswer,
    EpisodeMapper.onShow, ShowCache.mapAuto]

/-- `invalidate` makes a mapper new about a show exactly where nothing stands under
`seasons:`. -/
theorem freshAbout_invalidate_iff :
    (w.step (.invalidate tmdbId)).FreshAbout tmdbId ↔ (w.mapper.shows tmdbId).NoPack := by
  have hshow : (w.step (.invalidate tmdbId)).mapper.shows tmdbId =
      (w.mapper.shows tmdbId).invalidate := by simp [step]
  constructor
  · intro hfresh
    by_contra hpack
    by_cases htwo : ((w.mapper.shows tmdbId).seasons.getD []).any (fun s => s.seasonNumber = 2)
    · -- season 2 is kept, and TMDB has it no longer
      have h := hfresh (packAfterChange tmdbId oneSeasonData)
      rw [answersAbout_packAfterChange, answersAbout_packAfterChange, hshow,
        ShowCache.mapPack_invalidate_of_any htwo] at h
      simp [ShowCache.mapPack_new_oneSeasonData] at h
    · -- season 2 is not kept, and TMDB has it now
      have h := hfresh (packAfterChange tmdbId twoSeasonData)
      rw [answersAbout_packAfterChange, answersAbout_packAfterChange, hshow,
        ShowCache.mapPack_invalidate_of_not_any hpack htwo] at h
      simp [ShowCache.mapPack_new_twoSeasonData] at h
  · intro hpack events
    refine answersAbout_like ⟨rfl, ?_⟩
    rw [EpisodeMapper.LikeAbout, hshow]
    exact ⟨rfl, rfl, hpack⟩

/-- No query of an event asks for a pack of the show while TMDB has seasons of it. -/
def PackUnseen (tmdbId : ℤ) (w : MapperWorld) : MapperEvent → Prop
  | .query q => q.AsksPack tmdbId → ¬w.tmdb.HasSeasons tmdbId
  | _ => True

theorem noPack_step (e : MapperEvent) : ((w.step e).mapper.shows tmdbId).NoPack ↔
    (w.mapper.shows tmdbId).NoPack ∧ PackUnseen tmdbId w e := by
  cases e with
  | query q => exact EpisodeMapper.noPack_ask
  | change tmdb => exact ⟨fun h => ⟨h, trivial⟩, And.left⟩
  | invalidate id =>
    have hsame : ((w.mapper.onShow id fun c => (c.invalidate, ())).1.shows tmdbId).NoPack ↔
        (w.mapper.shows tmdbId).NoPack := EpisodeMapper.noPack_onShow_of_eq fun _ => rfl
    exact hsame.trans ⟨fun h => ⟨h, trivial⟩, And.left⟩

end MapperWorld

/-- After a history of queries, changes of what TMDB says and invalidations, `invalidate` makes
the queries about a show be answered as by a new mapper, whatever follows, exactly where no query
of the history asked for the pack of a season of the show while TMDB had seasons of it. -/
theorem invalidate_fresh_iff (tmdb : TmdbData) (history : List MapperEvent) (tmdbId : ℤ) :
    ((history.foldl MapperWorld.step { tmdb := tmdb }).step (.invalidate tmdbId)).FreshAbout
        tmdbId ↔
      Run.Along MapperWorld.step (MapperWorld.PackUnseen tmdbId) { tmdb := tmdb } history := by
  rw [MapperWorld.freshAbout_invalidate_iff]
  have hrun : ((history.foldl MapperWorld.step { tmdb := tmdb }).mapper.shows tmdbId).NoPack ↔
      ShowCache.NoPack {} ∧
        Run.Along MapperWorld.step (MapperWorld.PackUnseen tmdbId) { tmdb := tmdb } history :=
    Run.foldl_iff_along (fun w : MapperWorld => (w.mapper.shows tmdbId).NoPack) (fun _ => True)
      (fun _ _ _ => trivial) (fun _ e _ => MapperWorld.noPack_step e) trivial
  exact hrun.trans (and_iff_right rfl)

/-- A pack of season 2 was asked for, the season is gone from TMDB, and the mapper still says that
it has it. -/
theorem invalidate_not_fresh_pack :
    ¬((([.query (.mapAuto 7 2 0 0)] : List MapperEvent).foldl MapperWorld.step
      { tmdb := twoSeasonData }).step (.invalidate 7)).FreshAbout 7 := by
  intro h
  have hanswers := h (MapperWorld.packAfterChange 7 oneSeasonData)
  revert hanswers
  decide

end WolfNas
