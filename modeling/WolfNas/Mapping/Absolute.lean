import WolfNas.Lib.Numbering
import WolfNas.Mapping.Queries

/-!
# Absolute numbers

`map_absolute` numbers the episodes of the normal seasons one after another, in the order of the
seasons' numbers.

## Main definitions

* `episodeTotal`, `IsEpisode` — the absolute numbers of a show, and its seasons and episodes.
* `ShowCache.NumbersInOrder` — `map_absolute` as an order isomorphism.

## Main results

* `find_eq_locate` — `_find` locates a number in the sections that the seasons are.
* `mapAbsolute_eq` — what `map_absolute` answers.
* `mapAbsolute_orderIso_iff` — for which seasons it is an order isomorphism.
-/

namespace WolfNas

/-! ## Seasons as sections -/

/-- The seasons as sections: their numbers, with their counts of episodes. -/
def sections (seasons : List TmdbSeason) : List (ℤ × ℤ) :=
  seasons.map fun s => (s.seasonNumber, s.episodeCount)

/-- How many episodes the normal seasons count. -/
def episodeTotal (seasons : List TmdbSeason) : ℤ :=
  ((normalSeasons seasons).map TmdbSeason.episodeCount).sum

/-- A season, not one of specials, and an episode of it. -/
def IsEpisode (seasons : List TmdbSeason) (p : ℤ ×ₗ ℤ) : Prop :=
  ∃ s ∈ normalSeasons seasons, s.seasonNumber = (ofLex p).1 ∧
    1 ≤ (ofLex p).2 ∧ (ofLex p).2 ≤ s.episodeCount

/-- `_find` locates a number. -/
theorem find_eq_locate (seasons : List TmdbSeason) (cum n : ℤ) :
    ShowCache.find seasons cum n = Numbering.locate (sections seasons) cum n := by
  induction seasons generalizing cum with
  | nil => rfl
  | cons s seasons ih => exact if_congr Iff.rfl rfl (ih _)

theorem perm_sortedSeasons (seasons : List TmdbSeason) :
    (sortedSeasons seasons).Perm (normalSeasons seasons) := List.perm_insertionSort _ _

/-- Sorting keeps the total. -/
theorem total_sortedSeasons (seasons : List TmdbSeason) :
    Numbering.total (sections (sortedSeasons seasons)) = episodeTotal seasons := by
  rw [Numbering.total, sections, List.map_map]
  exact ((perm_sortedSeasons seasons).map _).sum_eq

/-- Sorting keeps the places. -/
theorem isPlace_sortedSeasons (seasons : List TmdbSeason) :
    (fun p : ℤ ×ₗ ℤ => Numbering.IsPlace (sections (sortedSeasons seasons)) (ofLex p)) =
      IsEpisode seasons := by
  refine funext fun p => propext ?_
  simp only [Numbering.IsPlace, sections, List.mem_map, Prod.mk.injEq, IsEpisode,
    (perm_sortedSeasons seasons).mem_iff]
  constructor
  · intro ⟨c, ⟨s, hs, hnumber, hcount⟩, hlow, hhigh⟩
    exact ⟨s, hs, hnumber, hlow, hcount ▸ hhigh⟩
  · intro ⟨s, hs, hnumber, hlow, hhigh⟩
    exact ⟨s.episodeCount, ⟨s, hs, hnumber, rfl⟩, hlow, hhigh⟩

theorem positive_sortedSeasons {seasons : List TmdbSeason}
    (h : ∀ s ∈ seasons, 0 < s.episodeCount) :
    Numbering.Positive (sections (sortedSeasons seasons)) := by
  intro e he
  obtain ⟨s, hs, rfl⟩ := List.mem_map.mp he
  exact h s (List.mem_of_mem_filter ((perm_sortedSeasons seasons).mem_iff.mp hs))

/-- The sections stand in the order of their numbers. -/
theorem pairwise_sortedSeasons (seasons : List TmdbSeason) :
    ((sections (sortedSeasons seasons)).map Prod.fst).Pairwise (· ≤ ·) := by
  have hsorted : (sortedSeasons seasons).Pairwise TmdbSeason.before := by
    have htotal : Std.Total TmdbSeason.before := ⟨fun s t => le_total s.seasonNumber t.seasonNumber⟩
    have htrans : IsTrans TmdbSeason TmdbSeason.before := ⟨fun _ _ _ => le_trans⟩
    exact List.pairwise_insertionSort _ _
  rw [sections, List.map_map, List.pairwise_map]
  exact hsorted

/-- Sorting keeps the numbers. -/
theorem nodup_sortedSeasons (seasons : List TmdbSeason) :
    ((sections (sortedSeasons seasons)).map Prod.fst).Nodup ↔
      ((normalSeasons seasons).map TmdbSeason.seasonNumber).Nodup := by
  rw [sections, List.map_map]
  exact ((perm_sortedSeasons seasons).map _).nodup_iff

/-! ## What `map_absolute` answers -/

/-- `map_absolute` numbers the episodes of a show: an order isomorphism from the absolute numbers
onto its seasons and episodes, in the lexicographic order. -/
def ShowCache.NumbersInOrder (c : ShowCache) (tmdb : TmdbData) (tmdbId : ℤ)
    (seasons : List TmdbSeason) : Prop :=
  ∃ iso : Set.Icc 1 (episodeTotal seasons) ≃o {p : ℤ ×ₗ ℤ // IsEpisode seasons p},
    ∀ n, (c.mapAbsolute tmdb tmdbId n.1 0).2 =
      some (.single (ofLex (iso n).1).1 (ofLex (iso n).1).2)

/-- A cache that holds what TMDB says answers by the sections of its seasons. -/
theorem mapAbsolute_eq {c : ShowCache} {tmdb : TmdbData} {tmdbId : ℤ}
    (hc : ShowCache.FoundIn tmdb tmdbId c) {seasons : List TmdbSeason}
    (hinfo : tmdb.info tmdbId = some seasons) (hpos : ∀ s ∈ seasons, 0 < s.episodeCount) (n : ℤ) :
    (c.mapAbsolute tmdb tmdbId n 0).2 =
      (Numbering.locate (sections (sortedSeasons seasons)) 0 n).map fun p => .single p.1 p.2 := by
  have hfind : ∀ l, ShowCache.findAbsolute l n 0 =
      (Numbering.locate (sections l) 0 n).map fun p => .single p.1 p.2 := by
    intro l
    rw [ShowCache.findAbsolute, ← find_eq_locate]
    cases ShowCache.find l 0 n <;> simp
  have hsorted := hc.absolute
  rw [hinfo, Option.getD_some] at hsorted
  rw [ShowCache.mapAbsolute]
  split_ifs with hlow
  · have hnone := (@Numbering.locate_eq_none_iff _ _ 0 n (positive_sortedSeasons hpos)).mpr
      (by omega)
    rw [hnone]
    rfl
  · cases habs : c.absolute.getD [] with
    | cons s l =>
      have heq : s :: l = sortedSeasons seasons := by simpa [habs] using hsorted
      rw [← heq]
      exact hfind _
    | nil =>
      rw [hinfo, Option.getD_some]
      cases hseasons : sortedSeasons seasons with
      | nil => rfl
      | cons s l => exact hfind _

/-- While TMDB says the same, after whatever queries, `map_absolute` answers nothing exactly for
the numbers that are none of 1, …, total, and numbers the episodes in order exactly where no two
normal seasons have one number. -/
theorem mapAbsolute_orderIso_iff (tmdb : TmdbData) (queries : List MapperQuery) (tmdbId : ℤ)
    (seasons : List TmdbSeason) (hinfo : tmdb.info tmdbId = some seasons)
    (hpos : ∀ s ∈ seasons, 0 < s.episodeCount) :
    (∀ n, (((mapperAfter tmdb queries).shows tmdbId).mapAbsolute tmdb tmdbId n 0).2 = none ↔
      n ∉ Set.Icc 1 (episodeTotal seasons)) ∧
    (((mapperAfter tmdb queries).shows tmdbId).NumbersInOrder tmdb tmdbId seasons ↔
      ((normalSeasons seasons).map TmdbSeason.seasonNumber).Nodup) := by
  have hanswer := mapAbsolute_eq (foundIn_mapperAfter tmdb queries tmdbId) hinfo hpos
  constructor
  · intro n
    rw [hanswer, Option.map_eq_none_iff,
      Numbering.locate_eq_none_iff (positive_sortedSeasons hpos), total_sortedSeasons,
      Set.mem_Icc, zero_add]
    rfl
  · have hiso := Numbering.exists_orderIso_iff (positive_sortedSeasons hpos)
      (pairwise_sortedSeasons seasons)
    rw [total_sortedSeasons, isPlace_sortedSeasons] at hiso
    rw [← nodup_sortedSeasons, ← hiso]
    refine exists_congr fun iso => forall_congr' fun n => ?_
    rw [hanswer, Option.map_eq_some_iff]
    constructor
    · intro ⟨p, hp, heq⟩
      obtain ⟨hseason, hepisode⟩ := MappedNumbers.single.inj heq
      exact hp.trans (congrArg some (Prod.ext hseason hepisode))
    · intro hp
      exact ⟨_, hp, rfl⟩

/-- What TMDB says where every show has these seasons. -/
def dataOf (seasons : List TmdbSeason) : TmdbData where
  info _ := some seasons

/-- Specials, and a gap between two seasons. -/
theorem mapAbsolute_orderIso_gap :
    ((mapperAfter (dataOf [⟨3, 13⟩, ⟨0, 2⟩, ⟨1, 12⟩]) [.mapAuto 7 3 1 0]).shows 7).NumbersInOrder
      (dataOf [⟨3, 13⟩, ⟨0, 2⟩, ⟨1, 12⟩]) 7 [⟨3, 13⟩, ⟨0, 2⟩, ⟨1, 12⟩] :=
  (mapAbsolute_orderIso_iff (dataOf [⟨3, 13⟩, ⟨0, 2⟩, ⟨1, 12⟩]) [.mapAuto 7 3 1 0] 7
    [⟨3, 13⟩, ⟨0, 2⟩, ⟨1, 12⟩] rfl (by decide)).2.mpr (by decide)

/-- Two seasons with one number: the numbers 1 and 2 are both its first episode. -/
theorem mapAbsolute_not_orderIso_twice :
    ¬((mapperAfter (dataOf [⟨1, 1⟩, ⟨1, 1⟩]) []).shows 7).NumbersInOrder
      (dataOf [⟨1, 1⟩, ⟨1, 1⟩]) 7 [⟨1, 1⟩, ⟨1, 1⟩] := by
  intro ⟨iso, hiso⟩
  have hequal : (({} : ShowCache).mapAbsolute (dataOf [⟨1, 1⟩, ⟨1, 1⟩]) 7 1 0).2 =
      (({} : ShowCache).mapAbsolute (dataOf [⟨1, 1⟩, ⟨1, 1⟩]) 7 2 0).2 := by decide
  have hsame := (hiso ⟨1, by decide, by decide⟩).symm.trans
    (hequal.trans (hiso ⟨2, by decide, by decide⟩))
  obtain ⟨hseason, hepisode⟩ := MappedNumbers.single.inj (Option.some.inj hsame)
  have hpair : iso ⟨1, by decide, by decide⟩ = iso ⟨2, by decide, by decide⟩ :=
    Subtype.ext (congrArg toLex (Prod.ext hseason hepisode))
  exact absurd (congrArg Subtype.val (iso.injective hpair)) (by decide)

end WolfNas
