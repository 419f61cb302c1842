import WolfNas.Lib.Run
import WolfNas.Mapping.Mapper

/-!
# Queries of the mapper

Queries about a show fill what the mapper keeps of it, and read and write nothing else.  What is
kept is right as long as TMDB says the same.

## Main definitions

* `MapperQuery`, `MapperQuery.ask` — the queries, and their answers.
* `MapperEvent`, `MapperWorld` — queries, changes of what TMDB says, and invalidations.
* `ShowCache.Like` — two caches that answer alike.
* `ShowCache.FoundIn` — a cache that holds what TMDB says.
* `MapperWorld.answersAbout` — what the queries about a show are answered in a run.

## Main results

* `MapperWorld.answersAbout_like` — worlds that are alike about a show answer alike.
* `foundIn_mapperAfter` — without a change of TMDB, the caches hold what it says.
-/

namespace WolfNas

/-! ## Queries and events -/

/-- A query. -/
inductive MapperQuery
  | map (tmdbId season episode endEp : ℤ)
  | mapAuto (tmdbId season episode endEp : ℤ)
  | mapAbsolute (tmdbId episode endEpisode : ℤ)
  | mapBatch (items : List BatchItem)

/-- An answer to a query about one show. -/
def oneAnswer (tmdbId : ℤ) (r : EpisodeMapper × Option MappedNumbers) :
    EpisodeMapper × List (ℤ × Option MappedNumbers) := (r.1, [(tmdbId, r.2)])

/-- What a query does, and its answers with their shows. -/
def MapperQuery.ask (m : EpisodeMapper) (tmdb : TmdbData) :
    MapperQuery → EpisodeMapper × List (ℤ × Option MappedNumbers)
  | .map tmdbId season episode endEp =>
    oneAnswer tmdbId (m.onShow tmdbId fun c => c.map tmdb tmdbId season episode endEp)
  | .mapAuto tmdbId season episode endEp =>
    oneAnswer tmdbId (m.onShow tmdbId fun c => c.mapAuto tmdb tmdbId season episode endEp)
  | .mapAbsolute tmdbId episode endEpisode =>
    oneAnswer tmdbId (m.onShow tmdbId fun c => c.mapAbsolute tmdb tmdbId episode endEpisode)
  | .mapBatch items => m.mapBatch tmdb items

/-- A query, a change of what TMDB says, or `invalidate`. -/
inductive MapperEvent
  | query (q : MapperQuery)
  | change (tmdb : TmdbData)
  | invalidate (tmdbId : ℤ)

/-- The mapper, and what TMDB says. -/
structure MapperWorld where
  mapper : EpisodeMapper := {}
  tmdb : TmdbData := {}

namespace MapperWorld

/-- What an event does. -/
def step (w : MapperWorld) : MapperEvent → MapperWorld
  | .query q => { w with mapper := (q.ask w.mapper w.tmdb).1 }
  | .change tmdb => { w with tmdb := tmdb }
  | .invalidate tmdbId =>
    { w with mapper := (w.mapper.onShow tmdbId fun c => (c.invalidate, ())).1 }

/-- What an event is answered. -/
def answers (w : MapperWorld) : MapperEvent → List (ℤ × Option MappedNumbers)
  | .query q => (q.ask w.mapper w.tmdb).2
  | _ => []

/-- The answers about a show in the rest of a run. -/
def answersAbout (w : MapperWorld) (tmdbId : ℤ) (events : List MapperEvent) :
    List (ℤ × Option MappedNumbers) :=
  (Run.trace step answers w events).filter fun a => a.1 = tmdbId

end MapperWorld

/-! ## What a query does to one show -/

namespace EpisodeMapper

variable {α : Type} {m : EpisodeMapper} {tmdbId id : ℤ} {query : ShowCache → ShowCache × α}

@[simp] theorem shows_onShow_self :
    (m.onShow tmdbId query).1.shows tmdbId = (query (m.shows tmdbId)).1 := by simp [onShow]

theorem shows_onShow_of_ne (h : id ≠ tmdbId) :
    (m.onShow tmdbId query).1.shows id = m.shows id := by simp [onShow, h]

/-- Queries about distinct shows each change their own. -/
theorem shows_foldl_onShow {f : ℤ → ShowCache → ShowCache × α} {ids : List ℤ} (h : ids.Nodup) :
    (ids.foldl (fun m id => (m.onShow id (f id)).1) m).shows id =
      if id ∈ ids then (f id (m.shows id)).1 else m.shows id := by
  induction ids generalizing m with
  | nil => simp
  | cons x ids ih =>
    obtain ⟨hx, hids⟩ := List.nodup_cons.mp h
    rw [List.foldl_cons, ih hids]
    by_cases hid : id = x
    · subst hid
      simp [hx]
    · simp [hid, shows_onShow_of_ne hid]

variable {tmdb : TmdbData} {items : List BatchItem}

/-- What the queries made ahead leave of a show. -/
theorem shows_prefetch : (m.prefetch tmdb items).shows id =
    let fetched :=
      if id ∈ m.blockIds items then ((m.shows id).fetchBlocks tmdb id).1 else m.shows id
    if id ∈ m.absoluteIds items then (fetched.mapAbsolute tmdb id 1 0).1 else fetched := by
  have hfetched : ((m.blockIds items).foldl
      (fun m id => (m.onShow id fun c => c.fetchBlocks tmdb id).1) m).shows id =
      if id ∈ m.blockIds items then ((m.shows id).fetchBlocks tmdb id).1 else m.shows id :=
    shows_foldl_onShow (f := fun id c => c.fetchBlocks tmdb id) (List.nodup_dedup _)
  have hmapped := @shows_foldl_onShow _ ((m.blockIds items).foldl
      (fun m id => (m.onShow id fun c => c.fetchBlocks tmdb id).1) m) id
    (fun id c => c.mapAbsolute tmdb id 1 0) (m.absoluteIds items) (List.nodup_dedup _)
  rw [hfetched] at hmapped
  exact hmapped

end EpisodeMapper

/-! ## Caches that answer alike -/

namespace ShowCache

variable {α : Type} {c c' : ShowCache} {tmdb : TmdbData} {tmdbId : ℤ}

/-- Two caches that differ at most in an empty list under `seasons:`. -/
structure Like (c c' : ShowCache) : Prop where
  blocks : c.blocks = c'.blocks
  absolute : c.absolute = c'.absolute
  seasons : c.seasons.getD [] = c'.seasons.getD []

/-- The same answer, and caches that are alike. -/
def Agree (r r' : ShowCache × α) : Prop := r.2 = r'.2 ∧ Like r.1 r'.1

theorem Like.fetchBlocks (h : Like c c') :
    Agree (c.fetchBlocks tmdb tmdbId) (c'.fetchBlocks tmdb tmdbId) := by
  simp only [ShowCache.fetchBlocks, h.blocks]
  split
  · exact ⟨rfl, h⟩
  · split
    · exact ⟨rfl, h⟩
    · exact ⟨rfl, rfl, h.absolute, h.seasons⟩

theorem Like.absoluteSeasons (h : Like c c') :
    Agree (c.absoluteSeasons tmdb tmdbId) (c'.absoluteSeasons tmdb tmdbId) := by
  simp only [ShowCache.absoluteSeasons, h.absolute]
  split
  · exact ⟨rfl, h⟩
  · split
    · exact ⟨rfl, h⟩
    · exact ⟨rfl, h.blocks, rfl, h.seasons⟩

theorem Like.packSeasons (h : Like c c') :
    Agree (c.packSeasons tmdb tmdbId) (c'.packSeasons tmdb tmdbId) := by
  simp only [ShowCache.packSeasons, h.seasons]
  split
  · exact ⟨rfl, h⟩
  · split
    · exact ⟨rfl, h⟩
    · exact ⟨rfl, h.blocks, h.absolute, rfl⟩

theorem Like.mapAbsolute {episode endEpisode : ℤ} (h : Like c c') :
    Agree (c.mapAbsolute tmdb tmdbId episode endEpisode)
      (c'.mapAbsolute tmdb tmdbId episode endEpisode) := by
  simp only [ShowCache.mapAbsolute, h.absolute]
  split_ifs
  · exact ⟨rfl, h⟩
  · split
    · exact ⟨rfl, h⟩
    · split
      · exact ⟨rfl, h⟩
      · exact ⟨rfl, h.blocks, rfl, h.seasons⟩

theorem Like.map {season episode endEp : ℤ} (h : Like c c') :
    Agree (c.map tmdb tmdbId season episode endEp) (c'.map tmdb tmdbId season episode endEp) := by
  obtain ⟨hanswer, hlike⟩ := @Like.fetchBlocks _ _ tmdb tmdbId h
  simp only [ShowCache.map]
  split_ifs
  · exact ⟨rfl, h⟩
  · exact ⟨congrArg (Option.bind · _) hanswer, hlike⟩

theorem Like.mapPack {season : ℤ} (h : Like c c') :
    Agree (c.mapPack tmdb tmdbId season) (c'.mapPack tmdb tmdbId season) := by
  obtain ⟨hseasons, hlike⟩ := @Like.packSeasons _ _ tmdb tmdbId h
  obtain ⟨hblocks, hlike'⟩ := @Like.fetchBlocks _ _ tmdb tmdbId hlike
  simp only [ShowCache.mapPack, hseasons]
  split_ifs
  · exact ⟨rfl, hlike⟩
  · exact ⟨congrArg (Option.bind · _) hblocks, hlike'⟩

theorem Like.mapAuto {season episode endEp : ℤ} (h : Like c c') :
    Agree (c.mapAuto tmdb tmdbId season episode endEp)
      (c'.mapAuto tmdb tmdbId season episode endEp) := by
  obtain ⟨hseasons, hlike⟩ := @Like.absoluteSeasons _ _ tmdb tmdbId h
  simp only [ShowCache.mapAuto, hseasons]
  split_ifs
  · exact h.mapPack
  · exact ⟨rfl, h⟩
  · exact ⟨rfl, hlike⟩
  · exact hlike.mapAbsolute
  · exact ⟨rfl, hlike⟩
  · exact hlike.map

/-- A query that answers alike on caches that are alike, and keeps them so. -/
def Lockstep (query : ShowCache → ShowCache × α) : Prop :=
  ∀ c c', Like c c' → Agree (query c) (query c')

end ShowCache

namespace EpisodeMapper

variable {m m' : EpisodeMapper} {tmdb : TmdbData} {id : ℤ}

/-- Mappers whose caches of a show are alike. -/
def LikeAbout (m m' : EpisodeMapper) (id : ℤ) : Prop := (m.shows id).Like (m'.shows id)

/-- A query about some show keeps mappers alike about any. -/
theorem LikeAbout.onShow {α : Type} {query : ShowCache → ShowCache × α} {tmdbId : ℤ}
    (hquery : ShowCache.Lockstep query) (h : m.LikeAbout m' id) :
    (m.onShow tmdbId query).1.LikeAbout (m'.onShow tmdbId query).1 id := by
  by_cases hid : id = tmdbId
  · subst hid
    rw [LikeAbout, shows_onShow_self, shows_onShow_self]
    exact (hquery _ _ h).2
  · rw [LikeAbout, shows_onShow_of_ne hid, shows_onShow_of_ne hid]
    exact h

/-- Its answers about a show are the same. -/
theorem LikeAbout.answer {query : ShowCache → ShowCache × Option MappedNumbers} {tmdbId : ℤ}
    (hquery : ShowCache.Lockstep query) (h : m.LikeAbout m' id) :
    (oneAnswer tmdbId (m.onShow tmdbId query)).2.filter (fun a => a.1 = id) =
      (oneAnswer tmdbId (m'.onShow tmdbId query)).2.filter fun a => a.1 = id := by
  by_cases hid : id = tmdbId
  · subst hid
    simp [oneAnswer, EpisodeMapper.onShow, (hquery _ _ h).1]
  · simp [oneAnswer, Ne.symm hid]

theorem LikeAbout.prefetch {items : List BatchItem} (h : m.LikeAbout m' id) :
    (m.prefetch tmdb items).LikeAbout (m'.prefetch tmdb items) id := by
  have hblocks : id ∈ m.blockIds items ↔ id ∈ m'.blockIds items := by
    simp only [blockIds, List.mem_dedup, List.mem_map, List.mem_filter]
    refine exists_congr fun i => and_congr_left fun hi => ?_
    rw [hi, h.blocks]
  have habsolute : id ∈ m.absoluteIds items ↔ id ∈ m'.absoluteIds items := by
    simp only [absoluteIds, List.mem_dedup, List.mem_map, List.mem_filter]
    refine exists_congr fun i => and_congr_left fun hi => ?_
    rw [hi, h.absolute]
  rw [LikeAbout, shows_prefetch, shows_prefetch]
  simp only [hblocks, habsolute]
  split_ifs
  · exact (ShowCache.Like.mapAbsolute (ShowCache.Like.fetchBlocks h).2).2
  · exact (ShowCache.Like.mapAbsolute h).2
  · exact (ShowCache.Like.fetchBlocks h).2
  · exact h

theorem LikeAbout.mapItems {items : List BatchItem} (h : m.LikeAbout m' id) :
    (mapItems tmdb m items).1.LikeAbout (mapItems tmdb m' items).1 id ∧
      (mapItems tmdb m items).2.filter (fun a => a.1 = id) =
        (mapItems tmdb m' items).2.filter fun a => a.1 = id := by
  induction items generalizing m m' with
  | nil => exact ⟨h, rfl⟩
  | cons i items ih =>
    have hnext : (m.mapItem tmdb i).1.LikeAbout (m'.mapItem tmdb i).1 id :=
      h.onShow fun _ _ hc => hc.mapAuto
    have hanswer : (oneAnswer i.tmdbId (m.mapItem tmdb i)).2.filter (fun a => a.1 = id) =
        (oneAnswer i.tmdbId (m'.mapItem tmdb i)).2.filter fun a => a.1 = id :=
      h.answer fun _ _ hc => hc.mapAuto
    refine ⟨(ih hnext).1, ?_⟩
    have hrest := (ih hnext).2
    simp only [mapItems, oneAnswer, List.filter_cons, List.filter_nil] at hanswer hrest ⊢
    split_ifs at hanswer ⊢ with hid
    · rw [List.singleton_inj.mp hanswer, hrest]
    · exact hrest

theorem LikeAbout.ask {q : MapperQuery} (h : m.LikeAbout m' id) :
    (q.ask m tmdb).1.LikeAbout (q.ask m' tmdb).1 id ∧
      (q.ask m tmdb).2.filter (fun a => a.1 = id) =
        (q.ask m' tmdb).2.filter fun a => a.1 = id := by
  cases q with
  | map tmdbId season episode endEp =>
    have hlock : ShowCache.Lockstep fun c => c.map tmdb tmdbId season episode endEp :=
      fun _ _ hc => hc.map
    exact ⟨h.onShow hlock, h.answer hlock⟩
  | mapAuto tmdbId season episode endEp =>
    have hlock : ShowCache.Lockstep fun c => c.mapAuto tmdb tmdbId season episode endEp :=
      fun _ _ hc => hc.mapAuto
    exact ⟨h.onShow hlock, h.answer hlock⟩
  | mapAbsolute tmdbId episode endEpisode =>
    have hlock : ShowCache.Lockstep fun c => c.mapAbsolute tmdb tmdbId episode endEpisode :=
      fun _ _ hc => hc.mapAbsolute
    exact ⟨h.onShow hlock, h.answer hlock⟩
  | mapBatch items => exact h.prefetch.mapItems

end EpisodeMapper

namespace MapperWorld

variable {w w' : MapperWorld} {tmdbId : ℤ}

/-- Worlds where TMDB says the same and the mappers are alike about a show. -/
def LikeAbout (tmdbId : ℤ) (w w' : MapperWorld) : Prop :=
  w.tmdb = w'.tmdb ∧ w.mapper.LikeAbout w'.mapper tmdbId

/-- Worlds that are alike about a show stay so. -/
theorem step_like (e : MapperEvent) (h : LikeAbout tmdbId w w') :
    LikeAbout tmdbId (w.step e) (w'.step e) := by
  obtain ⟨htmdb, hlike⟩ := h
  cases e with
  | query q =>
    refine ⟨htmdb, ?_⟩
    simp only [step, htmdb]
    exact hlike.ask.1
  | change tmdb => exact ⟨rfl, hlike⟩
  | invalidate id =>
    have hlock : ShowCache.Lockstep fun c => (c.invalidate, ()) :=
      fun _ _ hc => ⟨rfl, rfl, rfl, hc.seasons⟩
    exact ⟨htmdb, hlike.onShow hlock⟩

/-- They answer alike. -/
theorem answers_like (e : MapperEvent) (h : LikeAbout tmdbId w w') :
    (w.answers e).filter (fun a => a.1 = tmdbId) = (w'.answers e).filter fun a => a.1 = tmdbId := by
  cases e with
  | query q =>
    simp only [answers, h.1]
    exact h.2.ask.2
  | change tmdb => rfl
  | invalidate id => rfl

theorem answersAbout_like {events : List MapperEvent} (h : LikeAbout tmdbId w w') :
    w.answersAbout tmdbId events = w'.answersAbout tmdbId events :=
  Run.filter_trace_eq (LikeAbout tmdbId) _ (fun _ _ e hlike => step_like e hlike)
    (fun _ _ e hlike => answers_like e hlike) h

end MapperWorld

/-! ## Caches that hold what TMDB says -/

namespace ShowCache

variable {c : ShowCache} {tmdb : TmdbData} {tmdbId : ℤ}

/-- The cache holds what TMDB says, as far as it holds anything. -/
structure FoundIn (tmdb : TmdbData) (tmdbId : ℤ) (c : ShowCache) : Prop where
  blocks : ∀ blocks, c.blocks = some blocks → inferBlocks tmdb tmdbId = some blocks
  absolute : c.absolute.getD [] = [] ∨
    c.absolute.getD [] = sortedSeasons ((tmdb.info tmdbId).getD [])

theorem FoundIn.empty : FoundIn tmdb tmdbId {} := ⟨by simp, .inl rfl⟩

theorem FoundIn.fetchBlocks (h : FoundIn tmdb tmdbId c) :
    FoundIn tmdb tmdbId (c.fetchBlocks tmdb tmdbId).1 := by
  simp only [ShowCache.fetchBlocks]
  split
  · exact h
  · split
    · exact h
    · rename_i hinfer
      refine ⟨fun blocks hblocks => ?_, h.absolute⟩
      rw [hinfer]
      exact hblocks

theorem FoundIn.absoluteSeasons (h : FoundIn tmdb tmdbId c) :
    FoundIn tmdb tmdbId (c.absoluteSeasons tmdb tmdbId).1 := by
  simp only [ShowCache.absoluteSeasons]
  split
  · exact h
  · split
    · exact h
    · rename_i hinfo
      exact ⟨h.blocks, .inr (by rw [hinfo]; rfl)⟩

theorem FoundIn.packSeasons (h : FoundIn tmdb tmdbId c) :
    FoundIn tmdb tmdbId (c.packSeasons tmdb tmdbId).1 := by
  simp only [ShowCache.packSeasons]
  split
  · exact h
  · split
    · exact h
    · exact ⟨h.blocks, h.absolute⟩

theorem FoundIn.mapAbsolute {episode endEpisode : ℤ} (h : FoundIn tmdb tmdbId c) :
    FoundIn tmdb tmdbId (c.mapAbsolute tmdb tmdbId episode endEpisode).1 := by
  simp only [ShowCache.mapAbsolute]
  split_ifs
  · exact h
  · split
    · exact h
    · split
      · exact h
      · rename_i hsorted
        exact ⟨h.blocks, .inr hsorted.symm⟩

theorem FoundIn.map {season episode endEp : ℤ} (h : FoundIn tmdb tmdbId c) :
    FoundIn tmdb tmdbId (c.map tmdb tmdbId season episode endEp).1 := by
  simp only [ShowCache.map]
  split_ifs
  · exact h
  · exact h.fetchBlocks

theorem FoundIn.mapAuto {season episode endEp : ℤ} (h : FoundIn tmdb tmdbId c) :
    FoundIn tmdb tmdbId (c.mapAuto tmdb tmdbId season episode endEp).1 := by
  simp only [ShowCache.mapAuto, ShowCache.mapPack]
  split_ifs
  · exact h.packSeasons
  · exact h.packSeasons.fetchBlocks
  · exact h
  · exact h.absoluteSeasons
  · exact h.absoluteSeasons.mapAbsolute
  · exact h.absoluteSeasons
  · exact h.absoluteSeasons.map

end ShowCache

namespace EpisodeMapper

variable {m : EpisodeMapper} {tmdb : TmdbData}

/-- Every cache holds what TMDB says. -/
def FoundIn (tmdb : TmdbData) (m : EpisodeMapper) : Prop :=
  ∀ id, (m.shows id).FoundIn tmdb id

theorem FoundIn.onShow {α : Type} {tmdbId : ℤ} {query : ShowCache → ShowCache × α}
    (h : FoundIn tmdb m)
    (hquery : ∀ c, ShowCache.FoundIn tmdb tmdbId c → ShowCache.FoundIn tmdb tmdbId (query c).1) :
    FoundIn tmdb (m.onShow tmdbId query).1 := by
  intro id
  by_cases hid : id = tmdbId
  · subst hid
    rw [shows_onShow_self]
    exact hquery _ (h id)
  · rw [shows_onShow_of_ne hid]
    exact h id

theorem FoundIn.prefetch {items : List BatchItem} (h : FoundIn tmdb m) :
    FoundIn tmdb (m.prefetch tmdb items) := by
  intro id
  rw [shows_prefetch]
  dsimp only
  split_ifs
  · exact (h id).fetchBlocks.mapAbsolute
  · exact (h id).mapAbsolute
  · exact (h id).fetchBlocks
  · exact h id

theorem FoundIn.mapItems {items : List BatchItem} (h : FoundIn tmdb m) :
    FoundIn tmdb (mapItems tmdb m items).1 := by
  induction items generalizing m with
  | nil => exact h
  | cons i items ih => exact ih (h.onShow fun _ hc => hc.mapAuto)

theorem FoundIn.ask (q : MapperQuery) (h : FoundIn tmdb m) : FoundIn tmdb (q.ask m tmdb).1 := by
  cases q with
  | map tmdbId season episode endEp => exact h.onShow fun _ hc => hc.map
  | mapAuto tmdbId season episode endEp => exact h.onShow fun _ hc => hc.mapAuto
  | mapAbsolute tmdbId episode endEpisode => exact h.onShow fun _ hc => hc.mapAbsolute
  | mapBatch items => exact h.prefetch.mapItems

end EpisodeMapper

/-- The mapper after queries while TMDB says the same. -/
def mapperAfter (tmdb : TmdbData) (queries : List MapperQuery) : EpisodeMapper :=
  queries.foldl (fun m q => (q.ask m tmdb).1) {}

/-- It holds what TMDB says. -/
theorem foundIn_mapperAfter (tmdb : TmdbData) (queries : List MapperQuery) :
    (mapperAfter tmdb queries).FoundIn tmdb :=
  Run.invariant (EpisodeMapper.FoundIn tmdb) (fun _ => ShowCache.FoundIn.empty)
    fun _ h q _ => h.ask q

end WolfNas
