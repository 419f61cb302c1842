import WolfNas.Download.Offers
import WolfNas.Transfer.Library

/-!
# What a pack covers

`find_season_packs` looks into the torrent of a pack for its episodes, and takes the pack where the
torrent has as many numbers as the seasons have episodes.  A number is no episode: those of two
seasons fall together, and a wrong one counts for a missing one.

## Main definitions

* `TorrentFile`, `getTorrentEpisodes` — the files of a torrent, and the numbers read from them.
* `Contains`, `Complete` — a torrent has an episode, and all episodes of the seasons.
* `missingNumbers`, `extraNumbers` — the numbers up to the longest season that the torrent lacks,
  and its numbers behind them.
* `DownloadEnv.Labelled` — a candidate that is labelled as seasons which are needed whole.

## Main results

* `length_add_missing` — how many numbers a torrent has.
* `DownloadEnv.packOffer_iff` — when a labelled candidate is taken.
* `DownloadEnv.accepts_complete_iff` — when exactly the complete packs are.
-/

namespace WolfNas

open Text

/-! ## The files of a torrent -/

/-- A file of a torrent, with what its name is parsed to. -/
structure TorrentFile where
  ext : Text
  parsed : MediaInfo
  deriving DecidableEq, Repr

/-- A file that `get_torrent_episodes` reads the episodes of. -/
def TorrentFile.Counts (f : TorrentFile) : Prop :=
  f.ext ∈ mediaExt ∧ f.parsed.beginEpisode.getD 0 ≠ 0

instance (f : TorrentFile) : Decidable f.Counts := inferInstanceAs (Decidable (_ ∧ _))

/-- `get_torrent_episodes`. -/
def getTorrentEpisodes (files : List TorrentFile) : List ℕ :=
  ((files.filter fun f => f.Counts).flatMap fun f => f.parsed.getEpisodeList).dedup

/-- A video of the torrent is the episode of the season. -/
def Contains (files : List TorrentFile) (s e : ℕ) : Prop :=
  ∃ f ∈ files, lower f.ext ∈ mediaExt ∧ s ∈ f.parsed.getSeasonList ∧ e ∈ f.parsed.getEpisodeList

instance (files : List TorrentFile) (s e : ℕ) : Decidable (Contains files s e) := by
  unfold Contains
  infer_instance

/-- The torrent has all episodes of the seasons of which the number is known. -/
def Complete (needs : List Need) (files : List TorrentFile) (seasons : List ℕ) : Prop :=
  ∀ s ∈ seasons, ∀ e ∈ List.range' 1 (Need.getSeasonEpisodes needs s), Contains files s e

instance (needs : List Need) (files : List TorrentFile) (seasons : List ℕ) :
    Decidable (Complete needs files seasons) := by
  unfold Complete
  infer_instance

/-! ## Numbers -/

/-- The numbers up to `n` that the torrent lacks. -/
def missingNumbers (numbers : List ℕ) (n : ℕ) : ℕ :=
  ((List.range' 1 n).filter (· ∉ numbers)).length

/-- The numbers of the torrent that are none up to `n`. -/
def extraNumbers (numbers : List ℕ) (n : ℕ) : ℕ :=
  (numbers.dedup.filter (· ∉ List.range' 1 n)).length

variable {numbers : List ℕ} {n : ℕ}

/-- **How many numbers a torrent has**: the extra ones make up for the missing ones. -/
theorem length_add_missing :
    numbers.dedup.length + missingNumbers numbers n = n + extraNumbers numbers n := by
  have hshared : ((List.range' 1 n).filter (· ∈ numbers)).Perm
      (numbers.dedup.filter (· ∈ List.range' 1 n)) := by
    refine (List.perm_ext_iff_of_nodup (List.Nodup.filter _ List.nodup_range')
      ((List.nodup_dedup numbers).filter _)).mpr ?_
    intro e
    simp only [List.mem_filter, List.mem_dedup, decide_eq_true_eq]
    exact and_comm
  have hrange := List.length_eq_length_filter_add (l := List.range' 1 n) (· ∈ numbers)
  have hnumbers := List.length_eq_length_filter_add (l := numbers.dedup) (· ∈ List.range' 1 n)
  rw [List.length_range'] at hrange
  have hlength := hshared.length_eq
  simp only [missingNumbers, extraNumbers, decide_not]
  omega

/-! ## The decision -/

/-- The sum of the known numbers of episodes. -/
def totalEpisodesOf (needs : List Need) (seasons : List ℕ) : ℕ :=
  (seasons.map (Need.getSeasonEpisodes needs)).sum

/-- The greatest of them. -/
def longestOf (needs : List Need) (seasons : List ℕ) : ℕ :=
  (seasons.map (Need.getSeasonEpisodes needs)).foldr max 0

theorem longestOf_le (needs : List Need) (seasons : List ℕ) :
    longestOf needs seasons ≤ totalEpisodesOf needs seasons := by
  simp only [longestOf, totalEpisodesOf]
  induction seasons.map (Need.getSeasonEpisodes needs) with
  | nil => exact le_rfl
  | cons m l ih =>
    rw [List.foldr_cons, List.sum_cons]
    omega

/-- **Numbers tell whether a pack is complete**: of a complete one the extra numbers make up for
what it lacks of the longest season and for the other seasons, of another one they do not; and where
no number of episodes is known, there are at least two. -/
structure NumbersTell (needs : List Need) (files : List TorrentFile) (seasons : List ℕ) : Prop where
  complete : totalEpisodesOf needs seasons ≠ 0 → Complete needs files seasons →
    totalEpisodesOf needs seasons - longestOf needs seasons +
        missingNumbers (getTorrentEpisodes files) (longestOf needs seasons) ≤
      extraNumbers (getTorrentEpisodes files) (longestOf needs seasons)
  incomplete : ¬Complete needs files seasons →
    extraNumbers (getTorrentEpisodes files) (longestOf needs seasons) <
      totalEpisodesOf needs seasons - longestOf needs seasons +
        missingNumbers (getTorrentEpisodes files) (longestOf needs seasons)
  unknown : totalEpisodesOf needs seasons = 0 → 2 ≤ (getTorrentEpisodes files).length

variable {needs : List Need} {files : List TorrentFile} {seasons : List ℕ}

/-- Of seasons without a known number of episodes nothing is missing. -/
theorem complete_of_unknown (h : totalEpisodesOf needs seasons = 0) :
    Complete needs files seasons := by
  intro s hs e he
  have hzero : Need.getSeasonEpisodes needs s = 0 :=
    List.sum_eq_zero_iff_forall_eq_nat.mp h _ (List.mem_map_of_mem hs)
  rw [hzero] at he
  simp at he

/-- The number of numbers is compared with the sum of the numbers of episodes. -/
theorem numbersTell_iff : ((getTorrentEpisodes files).length ≠ 0 ∧
      (if totalEpisodesOf needs seasons ≠ 0 then
        totalEpisodesOf needs seasons ≤ (getTorrentEpisodes files).length
      else 2 ≤ (getTorrentEpisodes files).length) ↔ Complete needs files seasons) ↔
    NumbersTell needs files seasons := by
  have hcount := @length_add_missing (getTorrentEpisodes files) (longestOf needs seasons)
  have hdedup : (getTorrentEpisodes files).dedup = getTorrentEpisodes files := List.dedup_idem
  have hle := longestOf_le needs seasons
  rw [hdedup] at hcount
  by_cases htotal : totalEpisodesOf needs seasons = 0
  · have hcomplete := @complete_of_unknown needs files seasons htotal
    rw [if_neg (not_not.mpr htotal)]
    constructor
    · intro h
      exact ⟨fun hne => absurd htotal hne, fun hnot => absurd hcomplete hnot,
        fun _ => (h.mpr hcomplete).2⟩
    · intro h
      have htwo := h.unknown htotal
      exact iff_of_true ⟨by omega, htwo⟩ hcomplete
  · rw [if_pos htotal]
    have haccept : ((getTorrentEpisodes files).length ≠ 0 ∧
        totalEpisodesOf needs seasons ≤ (getTorrentEpisodes files).length) ↔
          totalEpisodesOf needs seasons - longestOf needs seasons +
              missingNumbers (getTorrentEpisodes files) (longestOf needs seasons) ≤
            extraNumbers (getTorrentEpisodes files) (longestOf needs seasons) := by
      omega
    rw [haccept]
    constructor
    · intro h
      refine ⟨fun _ => h.mpr, ?_, fun hzero => absurd hzero htotal⟩
      intro hnot
      exact not_le.mp (mt h.mp hnot)
    · intro h
      refine ⟨?_, h.complete htotal⟩
      intro hextra
      by_contra hnot
      exact absurd (h.incomplete hnot) (not_lt.mpr hextra)

namespace DownloadEnv

variable (env : DownloadEnv) {st : Batch} {i : ℕ}

/-- A candidate that is labelled as seasons of the series which are needed whole, with the link of
a torrent. -/
structure Labelled (st : Batch) (i : ℕ) : Prop where
  series : (st.items i).media.type ≠ some .movie
  fresh : (st.items i).failed = false
  pack : (st.items i).media.getEpisodeList = []
  key : matchesKey st.key (st.items i) = true
  link : (env.fetchUrl st i).raised = false
  seasons : ∃ whole, st.whole st.key = some whole ∧
    ∀ s ∈ (st.items i).media.getSeasonList, (s : ℤ) ∈ whole
  torrent : (orEmpty ((env.fetchUrl st i).items i).media.enclosure).startsWith (of "magnet:") =
    false

/-- A labelled candidate is taken where its torrent has enough numbers. -/
theorem packOffer_iff (h : env.Labelled st i)
    (hfiles : env.episodesOf ((env.fetchUrl st i).items i).media.enclosure =
      some (getTorrentEpisodes files)) :
    (∃ st' p, env.considerPack st i = (st', some p)) ↔ (getTorrentEpisodes files).length ≠ 0 ∧
      (if totalEpisodesOf (st.needs st.key) (st.items i).media.getSeasonList ≠ 0 then
        totalEpisodesOf (st.needs st.key) (st.items i).media.getSeasonList ≤
          (getTorrentEpisodes files).length
      else 2 ≤ (getTorrentEpisodes files).length) := by
  have hcovers : env.packCovers (st.needs st.key) ((env.fetchUrl st i).items i) = some true ↔
      (getTorrentEpisodes files).length ≠ 0 ∧
        (if totalEpisodesOf (st.needs st.key) (st.items i).media.getSeasonList ≠ 0 then
          totalEpisodesOf (st.needs st.key) (st.items i).media.getSeasonList ≤
            (getTorrentEpisodes files).length
        else 2 ≤ (getTorrentEpisodes files).length) := by
    have hdedup : (getTorrentEpisodes files).dedup = getTorrentEpisodes files := List.dedup_idem
    simp only [packCovers, h.torrent, Bool.false_eq_true, and_false, if_false, hfiles,
      Option.map_some, hdedup, Option.some.injEq, decide_eq_true_iff, seasons_fetchUrl]
    rfl
  rw [← hcovers]
  constructor
  · rintro ⟨st', p, htaken⟩
    exact (env.considerPack_iff.mp htaken).1.covers
  · intro hcover
    exact ⟨_, _, env.considerPack_iff.mpr
      ⟨⟨h.series, h.fresh, h.pack, h.key, h.link, h.seasons, hcover⟩, rfl, rfl⟩⟩

/-- **When exactly the complete packs are taken**: where the numbers tell which ones are. -/
theorem accepts_complete_iff (h : env.Labelled st i)
    (hfiles : env.episodesOf ((env.fetchUrl st i).items i).media.enclosure =
      some (getTorrentEpisodes files)) :
    ((∃ st' p, env.considerPack st i = (st', some p)) ↔
        Complete (st.needs st.key) files (st.items i).media.getSeasonList) ↔
      NumbersTell (st.needs st.key) files (st.items i).media.getSeasonList := by
  rw [env.packOffer_iff h hfiles]
  exact numbersTell_iff

/-- A downloader whose torrents have the files. -/
def packed (files : List TorrentFile) : DownloadEnv where
  bySeeders := false
  downloadUrl _ := some none
  torrentEpisodes _ := some (getTorrentEpisodes files)
  add _ _ _ := some (of "1")
  tidEpisodes _ := some []
  setFilesFails _ := false
  startFails _ := false
  removeFails _ := false

/-- A video of an episode. -/
def episodeFile (s e : ℕ) : TorrentFile :=
  ⟨of ".mkv", { type := some .tv, beginSeason := some s, beginEpisode := some e }⟩

/-- Two seasons of two episodes are needed whole, and a candidate is labelled as the first one, or
as the first up to another one. -/
def twoSeasons (last : Option ℕ) : Batch :=
  { Batch.start (Dict.empty.set (.text (of "tmdb:5")) [⟨1, [], 2, 0⟩, ⟨2, [], 2, 0⟩])
      [{ media :=
          { type := some .tv, tmdbId := .int 5, beginSeason := some 1, endSeason := last
            enclosure := some (of "http://pt.example/1") } }] with
    key := .text (of "tmdb:5") }

theorem labelled_twoSeasons (files : List TorrentFile) (last : Option ℕ)
    (hlast : last = none ∨ last = some 2) : (packed files).Labelled (twoSeasons last) 0 := by
  have htorrent : (of "http://pt.example/1").startsWith (of "magnet:") = false := by decide +kernel
  rcases hlast with rfl | rfl
  · exact ⟨by decide, rfl, rfl, by decide +kernel, rfl, ⟨[1, 2], rfl, by decide⟩, htorrent⟩
  · exact ⟨by decide, rfl, rfl, by decide +kernel, rfl, ⟨[1, 2], rfl, by decide⟩, htorrent⟩

/-- The complete first season is taken. -/
theorem complete_season_taken :
    (∃ st' p, (packed [episodeFile 1 1, episodeFile 1 2]).considerPack (twoSeasons none) 0 =
        (st', some p)) ↔
      Complete ((twoSeasons none).needs (.text (of "tmdb:5")))
        [episodeFile 1 1, episodeFile 1 2] [1] :=
  ((packed [episodeFile 1 1, episodeFile 1 2]).accepts_complete_iff
    (labelled_twoSeasons _ none (.inl rfl)) rfl).mpr
      ⟨by decide +kernel, by decide +kernel, by decide +kernel⟩

/-- Two other episodes are taken for the first season, and two complete seasons are refused. -/
theorem numbers_mistaken :
    ((∃ st' p, (packed [episodeFile 1 5, episodeFile 1 6]).considerPack (twoSeasons none) 0 =
        (st', some p)) ∧
      ¬Complete ((twoSeasons none).needs (.text (of "tmdb:5")))
        [episodeFile 1 5, episodeFile 1 6] [1]) ∧
    (¬∃ st' p, (packed [episodeFile 1 1, episodeFile 1 2, episodeFile 2 1,
        episodeFile 2 2]).considerPack (twoSeasons (some 2)) 0 = (st', some p)) ∧
      Complete ((twoSeasons (some 2)).needs (.text (of "tmdb:5")))
        [episodeFile 1 1, episodeFile 1 2, episodeFile 2 1, episodeFile 2 2] [1, 2] := by
  refine ⟨⟨?_, by decide +kernel⟩, ?_, by decide +kernel⟩
  · rw [packOffer_iff _ (labelled_twoSeasons _ none (.inl rfl)) rfl]
    decide +kernel
  · rw [packOffer_iff _ (labelled_twoSeasons _ (some 2) (.inr rfl)) rfl]
    decide +kernel

end DownloadEnv

end WolfNas
