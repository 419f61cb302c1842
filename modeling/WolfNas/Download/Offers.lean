import WolfNas.Lib.Run
import WolfNas.Download.Batch

/-!
# What a batch downloads

The log of a batch holds every call of `download`.  A turn makes a call exactly where its
candidate offers what the loop looks for, and the run of the turns makes those calls one after
another.

## Main definitions

* `DownloadEnv.FilmOffer`, `DownloadEnv.PackOffer`, `DownloadEnv.EpisodeOffer`,
  `DownloadEnv.UnpackOffer` — the candidate offers what the four loops look for.
* `DownloadEnv.attempts` — the calls of a turn.
* `DownloadEnv.Gives` — the turn leads to a call that has a property.

## Main results

* `DownloadEnv.considerFilm_iff`, `DownloadEnv.considerPack_iff`,
  `DownloadEnv.considerEpisode_iff`, `DownloadEnv.considerUnpack_iff` — a candidate is taken
  exactly where it is an offer.
* `DownloadEnv.log_turn` — what a turn adds to the log.
* `DownloadEnv.forall_log_batch_iff`, `DownloadEnv.exists_log_batch_iff` — what holds of all
  calls of a batch, and what of one.
-/

namespace WolfNas

open Text

/-- The place of the candidate a turn is about. -/
def Turn.place : Turn → Option ℕ
  | film i | pack i | episode i | unpack i => some i
  | openSeasons _ | openSeries _ | openEpisodes _ | openPacks _ => none

/-! ## What considering a candidate leaves alone -/

/-- The states differ in the candidates, and in whether an exception has ended the batch. -/
def Batch.Framed (st st' : Batch) : Prop :=
  ∃ items raised, st' = { st with items := items, raised := raised }

namespace Batch

variable {st st' st'' : Batch}

theorem Framed.refl (st : Batch) : st.Framed st := ⟨st.items, st.raised, rfl⟩

theorem Framed.trans (h : st.Framed st') (h' : st'.Framed st'') : st.Framed st'' := by
  obtain ⟨_, _, rfl⟩ := h
  obtain ⟨items, raised, rfl⟩ := h'
  exact ⟨items, raised, rfl⟩

theorem framed_raise (st : Batch) : st.Framed { st with raised := true } := ⟨st.items, true, rfl⟩

theorem framed_setItem (st : Batch) (i : ℕ) (c : Candidate) : st.Framed (st.setItem i c) :=
  ⟨_, st.raised, rfl⟩

end Batch

namespace DownloadEnv

variable (env : DownloadEnv) {st st' : Batch} {i j : ℕ} {k : IdValue} {p : Plan}
  {need released relative : List ℕ} {id : Text}

theorem framed_fetchUrl : st.Framed (env.fetchUrl st i) := by
  simp only [fetchUrl]
  split
  · exact .refl st
  · split
    · exact st.framed_raise
    · exact st.framed_setItem _ _

theorem framed_considerFilm : st.Framed (env.considerFilm st i).1 := by
  simp only [considerFilm]
  split
  · exact .refl st
  · split <;> exact env.framed_fetchUrl

theorem framed_considerPack : st.Framed (env.considerPack st i).1 := by
  simp only [considerPack]
  split
  · exact .refl st
  · split
    · exact .refl st
    · split
      · exact env.framed_fetchUrl
      · split
        · split
          · exact env.framed_fetchUrl.trans (Batch.framed_raise _)
          · exact env.framed_fetchUrl
          · exact env.framed_fetchUrl
        · exact env.framed_fetchUrl

theorem framed_considerReleased : st.Framed (considerReleased st i need released).1 := by
  simp only [considerReleased]
  split
  · exact .refl st
  · exact st.framed_setItem _ _

theorem framed_considerUnlisted : st.Framed (env.considerUnlisted st i need).1 := by
  simp only [considerUnlisted]
  split
  · exact env.framed_fetchUrl
  · split
    · exact env.framed_fetchUrl.trans (Batch.framed_raise _)
    · split
      · exact env.framed_fetchUrl
      · split
        · exact env.framed_fetchUrl.trans (Batch.framed_raise _)
        · exact env.framed_fetchUrl
        · exact env.framed_fetchUrl.trans framed_considerReleased

theorem framed_considerEpisode : st.Framed (env.considerEpisode st i).1 := by
  simp only [considerEpisode]
  split
  · exact .refl st
  · split
    · exact .refl st
    · split
      · exact framed_considerReleased
      · exact env.framed_considerUnlisted

theorem framed_considerUnpack : st.Framed (env.considerUnpack st i).1 := by
  simp only [considerUnpack]
  split
  · exact .refl st
  · exact .refl st
  · split
    · exact .refl st
    · split
      · exact env.framed_fetchUrl
      · split
        · exact env.framed_fetchUrl
        · split
          · exact env.framed_fetchUrl.trans (Batch.framed_raise _)
          · split <;> exact env.framed_fetchUrl

/-! ## Offers -/

/-- The candidate with its link, where it has to be looked into for its episodes. -/
def linked (st : Batch) (i : ℕ) : Batch :=
  if (st.items i).media.getEpisodeList ≠ [] then st else env.fetchUrl st i

/-- The episodes a candidate is known to have, by its name or by its torrent file. -/
def releasedEpisodes (st : Batch) (i : ℕ) : Option (List ℕ) :=
  if (st.items i).media.getEpisodeList ≠ [] then some (st.items i).media.getEpisodeList
  else
    let st := env.fetchUrl st i
    if st.raised then none
    else match (st.items i).media.enclosure with
      | none => none
      | some url =>
        if url.startsWith (of "magnet") then none
        else (env.episodesOf (some url)).filter (· ≠ [])

/-- A candidate for the needed whole seasons of a series. -/
structure PackOffer (st : Batch) (i : ℕ) : Prop where
  series : (st.items i).media.type ≠ some .movie
  fresh : (st.items i).failed = false
  pack : (st.items i).media.getEpisodeList = []
  key : matchesKey st.key (st.items i) = true
  link : (env.fetchUrl st i).raised = false
  seasons : ∃ whole, st.whole st.key = some whole ∧
    ∀ s ∈ (st.items i).media.getSeasonList, (s : ℤ) ∈ whole
  covers : env.packCovers (st.needs st.key) ((env.fetchUrl st i).items i) = some true

/-- A candidate for a film that has not been downloaded. -/
structure FilmOffer (st : Batch) (i : ℕ) : Prop where
  film : (st.items i).media.type = some .movie
  fresh : (st.items i).failed = false
  new : filmName (st.items i) ∉ st.names
  link : (env.fetchUrl st i).raised = false

/-- A candidate for needed episodes of a season; it is taken for the given ones. -/
structure EpisodeOffer (st : Batch) (need : List ℕ) (i : ℕ) (relative : List ℕ) : Prop where
  series : (st.items i).media.type ≠ some .movie
  key : matchesKey st.key (st.items i) = true
  new : st.isIn i st.downloaded = false
  fresh : (st.items i).failed = false
  season : (st.items i).media.getSeasonList.map Nat.cast = [(st.slot st.key st.tv).number]
  episodes : ∃ released, env.releasedEpisodes st i = some released ∧
    relativeReleaseEpisodes released need (st.slot st.key st.tv).episodeOffset
      (st.slot st.key st.tv).number = some relative

/-- A candidate for a pack from which needed episodes are taken. -/
structure UnpackOffer (st : Batch) (need : List ℕ) (i : ℕ) : Prop where
  series : (st.items i).media.type ≠ some .movie
  new : st.isIn i st.downloaded = false
  fresh : (st.items i).failed = false
  key : matchesKey st.key (st.items i) = true
  listed : (st.items i).media.getEpisodeList ≠ [] →
    (matchReleaseEpisodes (st.items i).media.getEpisodeList need
      (st.slot st.key st.tv).episodeOffset (st.slot st.key st.tv).number).1 ≠ []
  season : (st.items i).media.getSeasonList.map Nat.cast = [(st.slot st.key st.tv).number]
  link : (env.fetchUrl st i).raised = false
  files : (orEmpty ((env.fetchUrl st i).items i).media.enclosure).startsWith (of "magnet:") = true ∨
    ∃ released, env.episodesOf ((env.fetchUrl st i).items i).media.enclosure = some released ∧
      (matchReleaseEpisodes released need (st.slot st.key st.tv).episodeOffset 1).1 ≠ []

/-- The link is all that changes of the candidate. -/
theorem media_fetchUrl : ∃ url, ((env.fetchUrl st i).items i).media =
    { (st.items i).media with enclosure := url } := by
  simp only [fetchUrl]
  split
  · exact ⟨_, rfl⟩
  · split
    · exact ⟨_, rfl⟩
    · rename_i url _
      exact ⟨url, by simp [Batch.setItem]⟩

theorem seasons_fetchUrl : ((env.fetchUrl st i).items i).media.getSeasonList =
    (st.items i).media.getSeasonList := by
  obtain ⟨url, h⟩ := @media_fetchUrl env st i
  rw [h]
  rfl

theorem seasons_withEpisodes (c : Candidate) (l : List ℕ) :
    (c.withEpisodes l).media.getSeasonList = c.media.getSeasonList := by
  cases l <;> rfl

theorem seasons_linked : ((env.linked st i).items i).media.getSeasonList =
    (st.items i).media.getSeasonList := by
  rw [linked]
  split
  · rfl
  · exact env.seasons_fetchUrl

theorem type_fetchUrl : ((env.fetchUrl st i).items i).media.type = (st.items i).media.type := by
  obtain ⟨url, h⟩ := @media_fetchUrl env st i
  rw [h]

theorem type_linked : ((env.linked st i).items i).media.type = (st.items i).media.type := by
  rw [linked]
  split
  · rfl
  · exact env.type_fetchUrl

theorem needs_fetchUrl : (env.fetchUrl st i).needs = st.needs := by
  obtain ⟨_, _, h⟩ := @framed_fetchUrl env st i
  rw [h]

theorem log_fetchUrl : (env.fetchUrl st i).log = st.log := by
  obtain ⟨_, _, h⟩ := @framed_fetchUrl env st i
  rw [h]

theorem log_linked : (env.linked st i).log = st.log := by
  rw [linked]
  split
  · rfl
  · exact env.log_fetchUrl

/-- A film is taken exactly where it is an offer. -/
theorem considerFilm_iff : env.considerFilm st i = (st', some p) ↔
    env.FilmOffer st i ∧ st' = env.fetchUrl st i ∧ p = .film i (filmName (st.items i)) := by
  simp only [considerFilm]
  constructor
  · intro h
    split_ifs at h with hskip hlink
    · simp at h
    · simp at h
    · simp only [not_or, Bool.not_eq_true, Decidable.not_not] at hskip hlink
      simp only [Prod.mk.injEq, Option.some.injEq] at h
      obtain ⟨hfilm, hfresh, hnew⟩ := hskip
      obtain ⟨rfl, rfl⟩ := h
      exact ⟨⟨hfilm, hfresh, hnew, hlink⟩, rfl, rfl⟩
  · rintro ⟨h, rfl, rfl⟩
    simp [h.film, h.fresh, h.new, h.link]

/-- A pack is taken exactly where it is an offer. -/
theorem considerPack_iff : env.considerPack st i = (st', some p) ↔
    env.PackOffer st i ∧ st' = env.fetchUrl st i ∧ p = .pack st.key i := by
  simp only [considerPack]
  constructor
  · intro h
    split at h
    · simp at h
    · rename_i whole hwhole
      split_ifs at h with hskip hlink hseasons
      · simp at h
      · simp at h
      · simp only [not_or, Bool.not_eq_true, Bool.not_eq_false', Decidable.not_not] at hskip hlink
        obtain ⟨hmovie, hfailed, hpack, hkey⟩ := hskip
        split at h
        · simp at h
        · simp at h
        · rename_i hcovers
          simp only [Prod.mk.injEq, Option.some.injEq] at h
          obtain ⟨rfl, rfl⟩ := h
          rw [needs_fetchUrl] at hcovers
          exact ⟨⟨hmovie, hfailed, hpack, hkey, hlink, ⟨whole, hwhole, hseasons⟩, hcovers⟩, rfl, rfl⟩
      · simp at h
  · rintro ⟨h, rfl, rfl⟩
    obtain ⟨whole, hwhole, hseasons⟩ := h.seasons
    rw [hwhole]
    simpa [h.series, h.fresh, h.pack, h.key, h.link, needs_fetchUrl, h.covers] using hseasons

theorem considerReleased_iff : considerReleased st i need released = (st', some p) ↔
    ∃ relative, relativeReleaseEpisodes released need (st.slot st.key st.tv).episodeOffset
        (st.slot st.key st.tv).number = some relative ∧
      st' = st.setItem i ((st.items i).withEpisodes relative) ∧
        p = .episode st.key st.tv i need relative := by
  simp only [considerReleased]
  cases h : relativeReleaseEpisodes released need (st.slot st.key st.tv).episodeOffset
      (st.slot st.key st.tv).number with
  | none => simp
  | some relative =>
    simp only [Prod.mk.injEq, Option.some.injEq, exists_eq_left']
    constructor <;> (rintro ⟨rfl, rfl⟩; exact ⟨rfl, rfl⟩)

/-- A candidate is asked for its episodes, and then compared with the needed ones. -/
theorem considerLinked_iff :
    (if (st.items i).media.getEpisodeList ≠ [] then
        considerReleased st i need (st.items i).media.getEpisodeList
      else env.considerUnlisted st i need) = (st', some p) ↔
      ∃ released, env.releasedEpisodes st i = some released ∧
        considerReleased (env.linked st i) i need released = (st', some p) := by
  by_cases hlist : (st.items i).media.getEpisodeList = []
  case neg => simp [releasedEpisodes, linked, hlist]
  simp only [releasedEpisodes, considerUnlisted, linked, hlist, ne_eq, not_true_eq_false, if_false]
  by_cases hraised : (env.fetchUrl st i).raised = true
  · simp [hraised]
  cases hurl : ((env.fetchUrl st i).items i).media.enclosure with
  | none => simp [hraised]
  | some url =>
    by_cases hmagnet : url.startsWith (of "magnet") = true
    · simp [hraised, hmagnet]
    · cases hepisodes : env.episodesOf (some url) with
      | none => simp [hraised, hmagnet, hepisodes]
      | some released =>
        cases released <;> simp [hraised, hmagnet, hepisodes, Option.filter]

theorem slot_linked (k : IdValue) (j : ℕ) : (env.linked st i).slot k j = st.slot k j ∧
    (env.linked st i).needs = st.needs := by
  rw [linked]
  split
  · exact ⟨rfl, rfl⟩
  · obtain ⟨_, _, h⟩ := @framed_fetchUrl env st i
    rw [h]
    exact ⟨rfl, rfl⟩

theorem linked_loop : (env.linked st i).key = st.key ∧ (env.linked st i).tv = st.tv ∧
    (env.linked st i).slot st.key st.tv = st.slot st.key st.tv := by
  rw [linked]
  split
  · exact ⟨rfl, rfl, rfl⟩
  · obtain ⟨_, _, h⟩ := @framed_fetchUrl env st i
    rw [h]
    exact ⟨rfl, rfl, rfl⟩

/-- A candidate for single episodes is taken exactly where it is an offer. -/
theorem considerEpisode_iff : env.considerEpisode st i = (st', some p) ↔
    ∃ need, st.need = some need ∧ ∃ relative, env.EpisodeOffer st need i relative ∧
      st' = (env.linked st i).setItem i (((env.linked st i).items i).withEpisodes relative) ∧
        p = .episode st.key st.tv i need relative := by
  obtain ⟨hkey, htv, hslot⟩ := @linked_loop env st i
  rw [considerEpisode]
  cases hneed : st.need with
  | none => simp
  | some need =>
    simp only [Option.some.injEq, exists_eq_left']
    by_cases hskip : (st.items i).media.type = some .movie ∨ !matchesKey st.key (st.items i) ∨
        st.isIn i st.downloaded ∨ (st.items i).failed ∨
          (st.items i).media.getSeasonList.map Nat.cast ≠ [(st.slot st.key st.tv).number]
    · rw [if_pos hskip]
      constructor
      · simp
      · rintro ⟨relative, h, -⟩
        simp [h.series, h.key, h.new, h.fresh, h.season] at hskip
    · rw [if_neg hskip, considerLinked_iff]
      simp only [not_or, Bool.not_eq_true, Bool.not_eq_false', Decidable.not_not] at hskip
      obtain ⟨hmovie, hmatch, hnew, hfresh, hseason⟩ := hskip
      simp only [considerReleased_iff, hkey, htv, hslot]
      constructor
      · rintro ⟨released, hreleased, relative, hrelative, rfl, rfl⟩
        exact ⟨relative, ⟨hmovie, hmatch, hnew, hfresh, hseason, released, hreleased, hrelative⟩,
          rfl, rfl⟩
      · rintro ⟨relative, h, rfl, rfl⟩
        obtain ⟨released, hreleased, hrelative⟩ := h.episodes
        exact ⟨released, hreleased, relative, hrelative, rfl, rfl⟩

/-- What is taken from a pack. -/
def unpackPlan (st : Batch) (need : List ℕ) (i : ℕ) : Plan :=
  let url := ((env.fetchUrl st i).items i).media.enclosure
  if (orEmpty url).startsWith (of "magnet:") then .magnet st.key st.tv i need
  else .unpack st.key st.tv i need (matchReleaseEpisodes ((env.episodesOf url).getD []) need
    (st.slot st.key st.tv).episodeOffset 1).2

/-- A pack to take episodes from is taken exactly where it is an offer. -/
theorem considerUnpack_iff : env.considerUnpack st i = (st', some p) ↔
    ∃ need, st.need = some need ∧ need ≠ [] ∧ env.UnpackOffer st need i ∧
      st' = env.fetchUrl st i ∧ p = env.unpackPlan st need i := by
  have hframe : (env.fetchUrl st i).key = st.key ∧ (env.fetchUrl st i).tv = st.tv := by
    obtain ⟨_, _, h⟩ := @framed_fetchUrl env st i
    rw [h]
    exact ⟨rfl, rfl⟩
  rw [considerUnpack]
  cases hneed : st.need with
  | none => simp
  | some need =>
    cases need with
    | nil => simp
    | cons e es =>
      simp only [Option.some.injEq, exists_eq_left', ne_eq, reduceCtorEq, not_false_eq_true, true_and]
      by_cases hskip : (st.items i).media.type = some .movie ∨ st.isIn i st.downloaded ∨
          (st.items i).failed ∨ !matchesKey st.key (st.items i) ∨
          ((st.items i).media.getEpisodeList ≠ [] ∧
            (matchReleaseEpisodes (st.items i).media.getEpisodeList (e :: es)
              (st.slot st.key st.tv).episodeOffset (st.slot st.key st.tv).number).1 = []) ∨
          (st.items i).media.getSeasonList.map Nat.cast ≠ [(st.slot st.key st.tv).number]
      · rw [if_pos hskip]
        constructor
        · simp
        · rintro ⟨h, -⟩
          simp only [h.series, h.new, h.fresh, h.key, h.season] at hskip
          simp at hskip
          exact absurd hskip.2 (h.listed hskip.1)
      · rw [if_neg hskip]
        simp only [not_or, not_and, Bool.not_eq_true, Bool.not_eq_false', Decidable.not_not] at hskip
        obtain ⟨hmovie, hnew, hfresh, hmatch, hlisted, hseason⟩ := hskip
        simp only [hframe, unpackPlan]
        by_cases hlink : (env.fetchUrl st i).raised = true
        · rw [if_pos hlink]
          constructor
          · simp
          · rintro ⟨h, -⟩
            simp [h.link] at hlink
        rw [if_neg hlink]
        rw [Bool.not_eq_true] at hlink
        by_cases hmagnet : (orEmpty ((env.fetchUrl st i).items i).media.enclosure).startsWith
            (of "magnet:") = true
        · simp only [hmagnet, if_true, Prod.mk.injEq, Option.some.injEq]
          constructor
          · rintro ⟨rfl, rfl⟩
            exact ⟨⟨hmovie, hnew, hfresh, hmatch, hlisted, hseason, hlink, .inl hmagnet⟩, rfl, rfl⟩
          · rintro ⟨-, rfl, rfl⟩
            exact ⟨rfl, rfl⟩
        · simp only [hmagnet, Bool.false_eq_true, if_false]
          cases hepisodes : env.episodesOf ((env.fetchUrl st i).items i).media.enclosure with
          | none =>
            constructor
            · simp
            · rintro ⟨h, -⟩
              rcases h.files with h | ⟨released, h, -⟩
              · exact absurd h hmagnet
              · simp [hepisodes] at h
          | some released =>
            simp only [Option.getD_some]
            by_cases hfound : (matchReleaseEpisodes released (e :: es)
                (st.slot st.key st.tv).episodeOffset 1).1 = []
            · rw [if_pos hfound]
              constructor
              · simp
              · rintro ⟨h, -⟩
                rcases h.files with h | ⟨released', h, hne⟩
                · exact absurd h hmagnet
                · obtain rfl : released = released' := Option.some.inj (hepisodes.symm.trans h)
                  exact absurd hfound hne
            · rw [if_neg hfound]
              simp only [Prod.mk.injEq, Option.some.injEq]
              constructor
              · rintro ⟨rfl, rfl⟩
                exact ⟨⟨hmovie, hnew, hfresh, hmatch, hlisted, hseason, hlink,
                  .inr ⟨released, hepisodes, hfound⟩⟩, rfl, rfl⟩
              · rintro ⟨-, rfl, rfl⟩
                exact ⟨rfl, rfl⟩

/-! ## The log -/

theorem log_consider (t : Turn) : (env.consider st t).1.log = st.log := by
  have hframe : ∀ {st'}, st.Framed st' → st'.log = st.log := by
    rintro _ ⟨_, _, rfl⟩
    rfl
  cases t with
  | film i => exact hframe env.framed_considerFilm
  | pack i => exact hframe env.framed_considerPack
  | episode i => exact hframe env.framed_considerEpisode
  | unpack i => exact hframe env.framed_considerUnpack
  | openSeasons k => rfl
  | openSeries k => rfl
  | openEpisodes j => rfl
  | openPacks j => rfl

@[simp] theorem id_download (p : Plan) : (env.download st p).2 = (env.attempt st p).id := by
  simp only [download]
  split <;> simp_all

theorem log_download (p : Plan) : (env.download st p).1.log = st.log ++ [env.attempt st p] := by
  simp only [download]
  split <;> rfl

theorem log_credit : (env.credit st id p).log = st.log := by
  cases p with
  | film i name => rfl
  | pack k i => rfl
  | episode k j i need relative => rfl
  | unpack k j i need relative => rfl
  | magnet k j i need =>
    simp only [credit]
    split
    · rfl
    · rfl
    · split <;> rfl

theorem log_settle : (env.settle st id p).log = st.log := by
  simp only [settle]
  split <;> exact env.log_credit

/-- The calls of `download` in a turn. -/
def attempts (st : Batch) (t : Turn) : List Attempt :=
  if st.raised then []
  else match env.consider st t with
    | (_, none) => []
    | (st', some p) => [env.attempt st' p]

theorem mem_attempts {t : Turn} {a : Attempt} : a ∈ env.attempts st t ↔ st.raised = false ∧
    ∃ st' p, env.consider st t = (st', some p) ∧ a = env.attempt st' p := by
  rw [attempts]
  by_cases hraised : st.raised = true
  · simp [hraised]
  · rw [if_neg hraised]
    rcases hconsider : env.consider st t with ⟨st', plan⟩
    cases plan with
    | none => simp
    | some p => simp [hraised]

theorem considerFilm_plan (h : env.considerFilm st i = (st', some p)) : ∃ name, p = .film i name := by
  obtain ⟨-, -, rfl⟩ := env.considerFilm_iff.mp h
  exact ⟨_, rfl⟩

/-- The turn leads to a call of `download` that has the property. -/
def Gives (Q : Attempt → Prop) (st : Batch) (t : Turn) : Prop :=
  st.raised = false ∧ match t with
    | .film i => FilmOffer env st i ∧
        Q (env.attempt (env.fetchUrl st i) (.film i (filmName (st.items i))))
    | .pack i => env.PackOffer st i ∧ Q (env.attempt (env.fetchUrl st i) (.pack st.key i))
    | .episode i => ∃ need, st.need = some need ∧ ∃ relative, env.EpisodeOffer st need i relative ∧
        Q (env.attempt
          ((env.linked st i).setItem i (((env.linked st i).items i).withEpisodes relative))
          (.episode st.key st.tv i need relative))
    | .unpack i => ∃ need, st.need = some need ∧ need ≠ [] ∧ env.UnpackOffer st need i ∧
        Q (env.attempt (env.fetchUrl st i) (env.unpackPlan st need i))
    | _ => False

theorem gives_iff {Q : Attempt → Prop} {t : Turn} :
    (∃ a ∈ env.attempts st t, Q a) ↔ env.Gives Q st t := by
  have hcalls : (∃ a ∈ env.attempts st t, Q a) ↔ st.raised = false ∧
      ∃ st' p, env.consider st t = (st', some p) ∧ Q (env.attempt st' p) := by
    simp only [mem_attempts]
    constructor
    · rintro ⟨_, ⟨hraised, st', p, hconsider, rfl⟩, hQ⟩
      exact ⟨hraised, st', p, hconsider, hQ⟩
    · rintro ⟨hraised, st', p, hconsider, hQ⟩
      exact ⟨_, ⟨hraised, st', p, hconsider, rfl⟩, hQ⟩
  rw [hcalls]
  unfold Gives
  refine and_congr_right fun _ => ?_
  cases t with
  | film i => simp [consider, considerFilm_iff, and_assoc]
  | pack i => simp [consider, considerPack_iff, and_assoc]
  | episode i =>
    simp only [consider, considerEpisode_iff]
    constructor
    · rintro ⟨_, _, ⟨need, hneed, relative, hoffer, rfl, rfl⟩, hQ⟩
      exact ⟨need, hneed, relative, hoffer, hQ⟩
    · rintro ⟨need, hneed, relative, hoffer, hQ⟩
      exact ⟨_, _, ⟨need, hneed, relative, hoffer, rfl, rfl⟩, hQ⟩
  | unpack i =>
    simp only [consider, considerUnpack_iff]
    constructor
    · rintro ⟨_, _, ⟨need, hneed, hne, hoffer, rfl, rfl⟩, hQ⟩
      exact ⟨need, hneed, hne, hoffer, hQ⟩
    · rintro ⟨need, hneed, hne, hoffer, hQ⟩
      exact ⟨_, _, ⟨need, hneed, hne, hoffer, rfl, rfl⟩, hQ⟩
  | openSeasons k => simp [consider]
  | openSeries k => simp [consider]
  | openEpisodes j => simp [consider]
  | openPacks j => simp [consider]

/-- A turn adds its calls to the log. -/
theorem log_turn (st : Batch) (t : Turn) : (env.turn st t).log = st.log ++ env.attempts st t := by
  rw [turn, attempts]
  by_cases hraised : st.raised = true
  · simp [hraised]
  · rw [if_neg hraised, if_neg hraised]
    rcases hconsider : env.consider st t with ⟨st', plan⟩
    have hlog : st'.log = st.log := by
      rw [← @log_consider env st t, hconsider]
    cases plan with
    | none => simp [hlog]
    | some p =>
      rcases hdownload : env.download st' p with ⟨st'', id⟩
      have hadded := @log_download env st' p
      rw [hdownload, hlog] at hadded
      cases id with
      | none => simpa [hdownload, hlog] using hadded
      | some id => simpa [hdownload, log_settle, hlog] using hadded

/-- The turns of a batch. -/
def batchTurns (needs : Needs) (items : List Candidate) : List Turn :=
  turns needs.keys (fun k => ((needs.get k).getD []).length) (env.downloadList items)

/-- What holds of all calls of a batch holds of those of each turn. -/
theorem forall_log_batch_iff {Q : Attempt → Prop} {needs : Needs} {items : List Candidate} :
    (∀ a ∈ (env.batchDownload needs items).log, Q a) ↔
      Run.Along env.turn (fun st t => ∀ a ∈ env.attempts st t, Q a) (Batch.start needs items)
        (env.batchTurns needs items) := by
  have hlog := @Run.forall_log_iff _ _ env.turn _ Batch.log env.attempts Q env.log_turn
    (env.batchTurns needs items) (Batch.start needs items)
  have hstart : ∀ a ∈ (Batch.start needs items).log, Q a := by simp [Batch.start]
  exact hlog.trans (and_iff_right hstart)

/-- A batch makes a call with a property exactly where one of its turns does. -/
theorem exists_log_batch_iff {Q : Attempt → Prop} {needs : Needs} {items : List Candidate} :
    (∃ a ∈ (env.batchDownload needs items).log, Q a) ↔
      Run.Sometime env.turn (env.Gives Q) (Batch.start needs items) (env.batchTurns needs items) := by
  have hlog := @Run.exists_log_iff _ _ env.turn _ Batch.log env.attempts Q env.log_turn
    (env.batchTurns needs items) (Batch.start needs items)
  have hstart : ¬∃ a ∈ (Batch.start needs items).log, Q a := by simp [Batch.start]
  have hcalls := hlog.trans (or_iff_right hstart)
  exact hcalls.trans (Run.sometime_congr fun _ _ => env.gives_iff)

theorem place_unpackPlan : (env.unpackPlan st need i).place = i := by
  simp only [unpackPlan]
  split <;> rfl

/-- A call of a turn is for its candidate. -/
theorem Gives.place {Q : Attempt → Prop} {t : Turn} (h : env.Gives Q st t) :
    ∃ a, Q a ∧ t.place = some a.plan.place := by
  obtain ⟨-, h⟩ := h
  cases t with
  | film i => exact ⟨_, h.2, rfl⟩
  | pack i => exact ⟨_, h.2, rfl⟩
  | episode i =>
    obtain ⟨need, -, relative, -, hQ⟩ := h
    exact ⟨_, hQ, rfl⟩
  | unpack i =>
    obtain ⟨need, -, -, -, hQ⟩ := h
    exact ⟨_, hQ, congrArg some env.place_unpackPlan.symm⟩
  | openSeasons k => exact h.elim
  | openSeries k => exact h.elim
  | openEpisodes j => exact h.elim
  | openPacks j => exact h.elim

/-- The turns of a batch are about the candidates it goes through. -/
theorem mem_of_mem_turns {keys : List IdValue} {slots : IdValue → ℕ} {list : List ℕ} {t : Turn}
    (ht : t ∈ turns keys slots list) (hi : t.place = some i) : i ∈ list := by
  simp only [turns, seasonTurns, List.mem_append, List.mem_map, List.mem_flatMap, List.mem_cons] at ht
  rcases ht with ((⟨c, hc, rfl⟩ | ⟨_, -, rfl | ⟨c, hc, rfl⟩⟩) |
    ⟨_, -, rfl | ⟨_, -, rfl | ⟨c, hc, rfl⟩⟩⟩) | ⟨_, -, rfl | ⟨_, -, rfl | ⟨c, hc, rfl⟩⟩⟩
  all_goals
    simp only [Turn.place, Option.some.injEq, reduceCtorEq] at hi
  all_goals
    rwa [← hi]

theorem mem_downloadList {needs : Needs} {items : List Candidate} {t : Turn}
    (ht : t ∈ env.batchTurns needs items) (hi : t.place = some i) : i ∈ env.downloadList items :=
  mem_of_mem_turns ht hi

end DownloadEnv

end WolfNas
