import WolfNas.Mapping.Queries

/-!
# The place of an episode in its block

`map` adds the number of an episode to the number at which its block begins, and takes the sum for
an episode of season 1.  The episodes of a block may skip numbers, and may be of other seasons.

## Main definitions

* `cutEpisodes`, `sourceBlock` — the episodes that the blocks are made of.
* `IsPlaced` — an episode of TMDB that stands in a block where the source says.
* `BeyondEnd`, `CountsOn` — the numbers of a block against the places in it.

## Main results

* `cutBlocks_eq` — a block is the first and the last number of its episodes.
* `map_placed_iff` — the source seasons and episodes that `map` puts in their place.
-/

namespace WolfNas

open Text

/-! ## The episodes of a block -/

/-- The episodes cut as `cutBlocks` cuts their numbers; `current` is the block so far, up to
`prev`. -/
def cutEpisodes (current : List TmdbEpisode) (prev : TmdbEpisode) :
    List TmdbEpisode → List (List TmdbEpisode)
  | [] => [current]
  | curr :: eps =>
    if shouldSplit prev curr current.length then current :: cutEpisodes [curr] curr eps
    else cutEpisodes (current ++ [curr]) curr eps

/-- The numbers of the first and of the last of some episodes. -/
def firstNumber (eps : List TmdbEpisode) : ℤ := (eps.head?.map TmdbEpisode.episodeNumber).getD 0

@[inherit_doc firstNumber]
def lastNumber (eps : List TmdbEpisode) : ℤ := (eps.getLast?.map TmdbEpisode.episodeNumber).getD 0

/-- The block that some episodes make. -/
def blockOf (eps : List TmdbEpisode) (season : ℕ) : SeasonBlock :=
  ⟨season, firstNumber eps, lastNumber eps⟩

/-- A block is the first and the last number of its episodes. -/
theorem cutBlocks_eq {current eps : List TmdbEpisode} {prev : TmdbEpisode} (season : ℕ)
    (hcurrent : current ≠ []) (hlast : current.getLast? = some prev) :
    cutBlocks season (firstNumber current) current.length prev eps =
      ((cutEpisodes current prev eps).zipIdx season).map fun b => blockOf b.1 b.2 := by
  have hblock : (⟨season, firstNumber current, prev.episodeNumber⟩ : SeasonBlock) =
      blockOf current season := by simp [blockOf, lastNumber, hlast]
  induction eps generalizing current prev season with
  | nil => simp [cutBlocks, cutEpisodes, hblock]
  | cons curr eps ih =>
    rw [cutBlocks, cutEpisodes]
    split_ifs
    · have hrest := @ih [curr] curr (season + 1) (by simp) rfl rfl
      rw [List.zipIdx_cons, List.map_cons, ← hrest, hblock]
      rfl
    · have hfirst : firstNumber (current ++ [curr]) = firstNumber current := by
        simp [firstNumber, List.head?_append_of_ne_nil _ hcurrent]
      have hrest := @ih (current ++ [curr]) curr season (by simp) (by simp)
        (by simp [blockOf, lastNumber])
      rw [hfirst, List.length_append, List.length_singleton] at hrest
      exact hrest

/-- Nothing is lost or added where episodes are cut. -/
theorem flatten_cutEpisodes {current eps : List TmdbEpisode} {prev : TmdbEpisode} :
    (cutEpisodes current prev eps).flatten = current ++ eps := by
  induction eps generalizing current prev with
  | nil => simp [cutEpisodes]
  | cons curr eps ih =>
    rw [cutEpisodes]
    split_ifs
    · rw [List.flatten_cons, ih, List.singleton_append]
    · rw [ih, List.append_assoc, List.singleton_append]

/-- The blocks of a show, as far as it has episodes to cut. -/
def episodeBlocks (tmdb : TmdbData) (tmdbId : ℤ) : List (List TmdbEpisode) :=
  match orderedEpisodes tmdb tmdbId with
  | none | some [] => []
  | some (first :: eps) => cutEpisodes [first] first eps

/-- The episodes of a source season. -/
def sourceBlock (tmdb : TmdbData) (tmdbId season : ℤ) : Option (List TmdbEpisode) :=
  (episodeBlocks tmdb tmdbId)[season.toNat - 1]?

/-- Blocks that are inferred are those of the episodes. -/
theorem getElem?_inferBlocks {tmdb : TmdbData} {tmdbId : ℤ} {blocks : List SeasonBlock}
    (h : inferBlocks tmdb tmdbId = some blocks) (i : ℕ) :
    blocks[i]? = (episodeBlocks tmdb tmdbId)[i]?.map fun eps => blockOf eps (1 + i) := by
  rw [inferBlocks] at h
  split at h
  · cases h
  · cases h
  · rename_i first eps horder
    have hblocks : episodeBlocks tmdb tmdbId = cutEpisodes [first] first eps := by
      rw [episodeBlocks, horder]
    have hcut := @cutBlocks_eq [first] eps first 1 (by simp) rfl
    have hfirst : firstNumber [first] = first.episodeNumber := rfl
    rw [hfirst, List.length_singleton] at hcut
    dsimp only at h
    split_ifs at h
    rw [← Option.some.inj h, hcut, hblocks, List.getElem?_map, List.getElem?_zipIdx,
      Option.map_map]
    rfl

/-! ## Episodes of TMDB -/

/-- TMDB has an episode of a season of the show. -/
def OnTmdb (tmdb : TmdbData) (tmdbId : ℤ) (p : ℤ × ℤ) : Prop :=
  ∃ seasons, tmdb.info tmdbId = some seasons ∧ (∃ s ∈ seasons, s.seasonNumber = p.1) ∧
    ∃ eps, tmdb.episodes tmdbId p.1 = some eps ∧ ∃ e ∈ eps, e.episodeNumber = p.2

theorem mem_collectEpisodes {tmdb : TmdbData} {tmdbId : ℤ} {seasons : List TmdbSeason}
    {eps : List TmdbEpisode} (h : collectEpisodes tmdb tmdbId seasons = some eps)
    {e : TmdbEpisode} (he : e ∈ eps) : (∃ s ∈ seasons, s.seasonNumber = e.tmdbSeason) ∧
      ∃ l, tmdb.episodes tmdbId e.tmdbSeason = some l ∧
        ∃ e' ∈ l, e'.episodeNumber = e.episodeNumber := by
  induction seasons generalizing eps with
  | nil =>
    cases h
    cases he
  | cons s seasons ih =>
    simp only [collectEpisodes, Option.bind_eq_bind, Option.bind_eq_some_iff] at h
    obtain ⟨l, hl, rest, hrest, heq⟩ := h
    cases heq
    rcases List.mem_append.mp he with hfirst | hlater
    · obtain ⟨e', he', rfl⟩ := List.mem_map.mp hfirst
      exact ⟨⟨s, List.mem_cons_self, rfl⟩, l, hl, e', he', rfl⟩
    · obtain ⟨⟨s', hs', hnumber⟩, hepisode⟩ := ih hrest hlater
      exact ⟨⟨s', List.mem_cons_of_mem s hs', hnumber⟩, hepisode⟩

/-- What is cut into blocks is on TMDB. -/
theorem onTmdb_of_mem_block {tmdb : TmdbData} {tmdbId season : ℤ} {block : List TmdbEpisode}
    (h : sourceBlock tmdb tmdbId season = some block) {e : TmdbEpisode} (he : e ∈ block) :
    OnTmdb tmdb tmdbId (e.tmdbSeason, e.episodeNumber) := by
  have hmem : e ∈ (episodeBlocks tmdb tmdbId).flatten :=
    List.mem_flatten.mpr ⟨block, List.mem_of_getElem? h, he⟩
  rw [episodeBlocks] at hmem
  split at hmem
  · cases hmem
  · cases hmem
  · rename_i first eps horder
    rw [flatten_cutEpisodes, List.singleton_append] at hmem
    simp only [orderedEpisodes, Option.bind_eq_bind, Option.bind_eq_some_iff] at horder
    obtain ⟨seasons, hinfo, horder⟩ := horder
    split_ifs at horder
    obtain ⟨all, hall, horder⟩ := Option.bind_eq_some_iff.mp horder
    split_ifs at horder
    rw [← Option.some.inj horder, List.mem_insertionSort] at hmem
    obtain ⟨⟨s, hs, hnumber⟩, hepisode⟩ := mem_collectEpisodes hall hmem
    exact ⟨seasons, hinfo, ⟨s, List.mem_of_mem_filter hs, hnumber⟩, hepisode⟩

/-! ## What `map` answers -/

/-- The season and the episode of an answer, the first ones where it is a range. -/
def MappedNumbers.start : MappedNumbers → ℤ × ℤ
  | single season episode | range season episode _ _ => (season, episode)

/-- The episode of a place in a block. -/
def atPlace (block : List TmdbEpisode) (episode : ℤ) : Option TmdbEpisode :=
  if 1 ≤ episode then block[episode.toNat - 1]? else none

/-- TMDB has the episode, and it stands in the block of the source season at the place that the
source says. -/
def IsPlaced (tmdb : TmdbData) (tmdbId season episode : ℤ) (p : ℤ × ℤ) : Prop :=
  OnTmdb tmdb tmdbId p ∧ ∃ block, sourceBlock tmdb tmdbId season = some block ∧
    ∃ e, atPlace block episode = some e ∧ (e.tmdbSeason, e.episodeNumber) = p

/-- The source counts past the last number of the block. -/
def BeyondEnd (block : List TmdbEpisode) (episode : ℤ) : Prop :=
  lastNumber block - firstNumber block + 1 < episode

instance (block : List TmdbEpisode) (episode : ℤ) : Decidable (BeyondEnd block episode) :=
  inferInstanceAs (Decidable (_ < _))

/-- The episode at a place is of season 1, and no number is skipped or repeated up to it. -/
def CountsOn (block : List TmdbEpisode) (episode : ℤ) : Prop :=
  ∃ e, atPlace block episode = some e ∧ e.tmdbSeason = 1 ∧
    e.episodeNumber - firstNumber block + 1 = episode

/-- What `map` makes of a block. -/
theorem start_mapInto {blocks : List SeasonBlock} {season episode endEp : ℤ} :
    (ShowCache.mapInto blocks season episode endEp).map MappedNumbers.start =
      (blocks[season.toNat - 1]?).bind fun b =>
        if b.endEp < b.startEp + episode - 1 then none else some (1, b.startEp + episode - 1) := by
  rw [ShowCache.mapInto]
  cases blocks[season.toNat - 1]? with
  | none => rfl
  | some b =>
    dsimp only [Option.bind_some]
    split_ifs <;> rfl

/-- A cache that holds what TMDB says answers by the blocks of its episodes. -/
theorem start_map {c : ShowCache} {tmdb : TmdbData} {tmdbId season episode endEp : ℤ}
    (hc : ShowCache.FoundIn tmdb tmdbId c) :
    (c.map tmdb tmdbId season episode endEp).2.map MappedNumbers.start =
      if season < 1 ∨ episode = 0 ∨ inferBlocks tmdb tmdbId = none then none
      else (sourceBlock tmdb tmdbId season).bind fun block =>
        if BeyondEnd block episode then none else some (1, firstNumber block + episode - 1) := by
  have hfetch : (c.fetchBlocks tmdb tmdbId).2 = inferBlocks tmdb tmdbId := by
    rw [ShowCache.fetchBlocks]
    cases hblocks : c.blocks with
    | some blocks => exact (hc.blocks blocks hblocks).symm
    | none => cases inferBlocks tmdb tmdbId <;> rfl
  rw [ShowCache.map]
  by_cases hgiven : season < 1 ∨ episode = 0
  · rw [if_pos hgiven, if_pos (hgiven.imp_right .inl)]
    rfl
  · rw [if_neg hgiven]
    change ((c.fetchBlocks tmdb tmdbId).2.bind _).map _ = _
    rw [hfetch]
    cases hinfer : inferBlocks tmdb tmdbId with
    | none =>
      rw [if_pos (.inr (.inr rfl))]
      rfl
    | some blocks =>
      have hsome : ¬(season < 1 ∨ episode = 0 ∨ some blocks = none) := by
        rw [← or_assoc, not_or]
        exact ⟨hgiven, by simp⟩
      rw [if_neg hsome, Option.bind_some, start_mapInto, getElem?_inferBlocks hinfer, sourceBlock]
      cases (episodeBlocks tmdb tmdbId)[season.toNat - 1]? with
      | none => rfl
      | some block =>
        refine if_congr ?_ rfl rfl
        change lastNumber block < firstNumber block + episode - 1 ↔
          lastNumber block - firstNumber block + 1 < episode
        omega

/-- While TMDB says the same, after whatever queries, what `map` answers to a season and an episode
is an episode of TMDB that stands where the source says, exactly where nothing is asked or
inferred, the source season has no block, the source counts past the end of its block, or the
block counts on up to the place. -/
theorem map_placed_iff (tmdb : TmdbData) (queries : List MapperQuery)
    (tmdbId season episode endEp : ℤ) :
    (∀ answer, (((mapperAfter tmdb queries).shows tmdbId).map tmdb tmdbId season episode endEp).2 =
        some answer → IsPlaced tmdb tmdbId season episode answer.start) ↔
      (season < 1 ∨ episode = 0 ∨ inferBlocks tmdb tmdbId = none ∨
        ∀ block, sourceBlock tmdb tmdbId season = some block →
          BeyondEnd block episode ∨ CountsOn block episode) := by
  have hstart := @start_map _ _ _ season episode endEp (foundIn_mapperAfter tmdb queries tmdbId)
  rw [← or_assoc, ← or_assoc, or_assoc (a := season < 1)]
  have hforall : (∀ answer, (((mapperAfter tmdb queries).shows tmdbId).map tmdb tmdbId season
      episode endEp).2 = some answer → IsPlaced tmdb tmdbId season episode answer.start) ↔
      ∀ p, (((mapperAfter tmdb queries).shows tmdbId).map tmdb tmdbId season episode
        endEp).2.map MappedNumbers.start = some p → IsPlaced tmdb tmdbId season episode p := by
    constructor
    · intro h p hp
      obtain ⟨answer, hanswer, rfl⟩ := Option.map_eq_some_iff.mp hp
      exact h answer hanswer
    · intro h answer hanswer
      exact h _ (by rw [hanswer]; rfl)
  rw [hforall, hstart]
  split_ifs with hnone
  · exact iff_of_true (fun p hp => by cases hp) (.inl hnone)
  · rw [or_iff_right hnone]
    cases hblock : sourceBlock tmdb tmdbId season with
    | none => exact iff_of_true (fun p hp => by cases hp) fun block h => by cases h
    | some block =>
      simp only [Option.bind_some, Option.some.injEq, forall_eq']
      split_ifs with hbeyond
      · exact iff_of_true (fun p hp => by cases hp) (.inl hbeyond)
      · rw [or_iff_right hbeyond]
        simp only [Option.some.injEq, forall_eq']
        constructor
        · intro ⟨_, block', hblock', e, he, hnumbers⟩
          rw [hblock] at hblock'
          cases hblock'
          obtain ⟨hseason, hnumber⟩ := Prod.mk.inj hnumbers
          exact ⟨e, he, hseason, by omega⟩
        · intro ⟨e, he, hseason, hnumber⟩
          have hpair : (e.tmdbSeason, e.episodeNumber) = (1, firstNumber block + episode - 1) :=
            Prod.ext hseason (by dsimp only; omega)
          have hmem : e ∈ block := by
            rw [atPlace] at he
            split_ifs at he
            exact List.mem_of_getElem? he
          exact ⟨hpair ▸ onTmdb_of_mem_block hblock hmem, block, hblock, e, he, hpair⟩

/-- A first season of four episodes in two halves, almost a year apart, and a second season. -/
def halvesData : TmdbData where
  info _ := some [⟨1, 4⟩, ⟨2, 26⟩]
  episodes _ season := some <|
    if season = 1 then
      [{ episodeNumber := 1, airDate := of "2020-01-05" },
        { episodeNumber := 2, airDate := of "2020-01-12" },
        { episodeNumber := 3, airDate := of "2020-12-06" },
        { episodeNumber := 4, airDate := of "2020-12-13" }]
    else (List.range 26).map fun n => { episodeNumber := n + 1 }

/-- The third episode of the second block is the first of season 2, and `map` answers an episode 5
of season 1, which TMDB does not have. -/
theorem map_not_placed_halves :
    ¬∀ answer, (((mapperAfter halvesData []).shows 7).map halvesData 7 2 3 0).2 = some answer →
      IsPlaced halvesData 7 2 3 answer.start := by
  intro h
  obtain ⟨⟨_, _, _, eps, heps, hepisode⟩, -⟩ := h (.single 1 5) (by decide +kernel)
  cases heps
  revert hepisode
  decide

end WolfNas
