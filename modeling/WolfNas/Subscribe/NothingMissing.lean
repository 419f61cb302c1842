import Mathlib.Data.List.GetD
import WolfNas.Subscribe.Intersect
import WolfNas.Subscribe.RssRound

/-!
# A season of which nothing is missing

An empty list of lacking episodes is stored once nothing of a season is missing, and an empty
list is what the downloader is handed for a season of which everything is missing.

## Main definitions

* `Attempt.Added` — a call of `download` added a torrent for a season of a series.
* `DownloadEnv.Refused` — a turn adds none, by what the candidate offers.
* `Round` — a search or an RSS round, and what it hands to the downloader.

## Main results

* `DownloadEnv.none_added_iff` — when a batch adds no torrent for a season.
* `nothing_added_iff` — when a round adds none for a season of which nothing is missing.
-/

namespace WolfNas

open Text

/-- The episodes that are looked for: an empty list stands for the whole season. -/
def Need.wanted (x : Need) : List ℕ :=
  if x.episodes = [] then List.range' 1 x.totalEpisodes else x.episodes

/-- The key of the series a download is for. -/
def Plan.key : Plan → Option IdValue
  | film _ _ => none
  | pack k _ | episode k _ _ _ _ | magnet k _ _ _ | unpack k _ _ _ _ => some k

/-- The needed season a download is for, where it is for the episodes of one. -/
def Plan.loop : Plan → Option (IdValue × ℕ)
  | film _ _ | pack _ _ => none
  | episode k j _ _ _ | magnet k j _ _ | unpack k j _ _ _ => some (k, j)

/-- The call added a torrent for a season of a series. -/
def Attempt.Added (k : IdValue) (n : ℤ) (a : Attempt) : Prop :=
  a.id ≠ none ∧ a.plan.key = some k ∧ n ∈ a.item.media.getSeasonList.map Nat.cast

instance (k : IdValue) (n : ℤ) (a : Attempt) : Decidable (a.Added k n) := by
  unfold Attempt.Added
  infer_instance

namespace Need

variable {l : List Need} {seasons : List ℕ} {left : List ℕ} {season : ℤ} {x d : Need} {j : ℕ}

theorem number_eq (hseason : season ≠ 0) (h : x.season = some season) : x.number = season := by
  simp [number, h, hseason]

theorem number_congr {y : Need} (h : x.season = y.season) : x.number = y.number := by
  simp [number, h]

/-- A pack that covers a needed season has its number; no pack is one of the specials. -/
theorem number_mem_of_inPack (hzero : 0 ∉ seasons) (h : x.inPack seasons = true) :
    x.number ∈ seasons.map Nat.cast := by
  simp only [inPack, decide_eq_true_eq] at h
  obtain ⟨cur, hcur, h | ⟨rfl, h⟩⟩ := h
  · have hne : cur ≠ 0 := by
      intro hcur'
      exact hzero (hcur' ▸ hcur)
    exact List.mem_map.mpr ⟨cur, hcur, (number_eq (by omega) h).symm⟩
  · exact List.mem_map.mpr ⟨1, hcur, by simp [number, h]⟩

/-- Dropping the seasons of a pack, at one place. -/
theorem getD_dropSeasons (hd : { d with live := false } = d) :
    (dropSeasons seasons l).getD j d =
      if (l.getD j d).inPack seasons then { l.getD j d with live := false } else l.getD j d := by
  have hmap := @List.getD_map _ _ l d j fun x : Need =>
    if x.inPack seasons then { x with live := false } else x
  rw [hd, ite_self] at hmap
  exact hmap

/-- Taking episodes off a season leaves the seasons of other numbers alone. -/
theorem getD_updateEpisodes :
    ((updateEpisodes season left l).getD j d).season = (l.getD j d).season ∧
      ((l.getD j d).season ≠ some season →
        (updateEpisodes season left l).getD j d = l.getD j d) := by
  induction l generalizing j with
  | nil => simp [updateEpisodes]
  | cons x l ih =>
    rw [updateEpisodes]
    by_cases hx : x.live ∧ x.season = some season
    · rw [if_pos hx]
      cases j with
      | zero =>
        constructor
        · simp only [List.getD_cons_zero]
          split <;> rfl
        · intro hne
          exact absurd hx.2 hne
      | succ j => simp
    · rw [if_neg hx]
      cases j with
      | zero => simp
      | succ j => simpa using ih

end Need

namespace DownloadEnv

variable {env : DownloadEnv} {start st st' : Batch} {k k' : IdValue} {n : ℤ} {i j : ℕ} {p : Plan}
  {id : Text} {need taken : List ℕ}

/-! ## The entries of a season, as long as nothing is added for it -/

/-- The needed seasons of a number are as they were handed over, and the loops go over the
episodes wanted of them. -/
structure Intact (start : Batch) (k : IdValue) (n : ℤ) (st : Batch) : Prop where
  season : ∀ j, (st.slot k j).season = (start.slot k j).season
  kept : ∀ j, (start.slot k j).number = n → st.slot k j = start.slot k j
  whole : ∀ whole, st.whole k = some whole → (0 : ℤ) ∉ whole
  need : st.key = k → (start.slot k st.tv).number = n →
    ∀ need, st.need = some need → need = (start.slot k st.tv).wanted

theorem Intact.number (h : Intact start k n st) (j : ℕ) :
    (st.slot k j).number = (start.slot k j).number := Need.number_congr (h.season j)

theorem slot_congr (h : st'.needs k = st.needs k) (j : ℕ) : st'.slot k j = st.slot k j := by
  rw [Batch.slot, Batch.slot, h]

/-- Only some of the state matters. -/
theorem Intact.congr (h : Intact start k n st) (hneeds : st'.needs k = st.needs k)
    (hwhole : st'.whole k = st.whole k) (hloop : st'.key = st.key ∧ st'.tv = st.tv)
    (hneed : st'.need = st.need) : Intact start k n st' := by
  have hslot := slot_congr hneeds
  refine ⟨?_, ?_, ?_, ?_⟩
  · intro j
    rw [hslot]
    exact h.season j
  · intro j hj
    rw [hslot]
    exact h.kept j hj
  · rw [hwhole]
    exact h.whole
  · rw [hloop.1, hloop.2, hneed]
    exact h.need

theorem Intact.framed (h : Intact start k n st) (hst : st.Framed st') : Intact start k n st' := by
  obtain ⟨_, _, rfl⟩ := hst
  exact h.congr rfl rfl ⟨rfl, rfl⟩ rfl

theorem intact_consider (h : Intact start k n st) (t : Turn) :
    Intact start k n (env.consider st t).1 := by
  cases t with
  | film i => exact h.framed env.framed_considerFilm
  | pack i => exact h.framed env.framed_considerPack
  | episode i => exact h.framed env.framed_considerEpisode
  | unpack i => exact h.framed env.framed_considerUnpack
  | openSeasons k' => exact ⟨h.season, h.kept, h.whole, by simp [consider]⟩
  | openSeries k' => exact ⟨h.season, h.kept, h.whole, by simp [consider]⟩
  | openEpisodes j =>
    refine ⟨h.season, h.kept, h.whole, ?_⟩
    intro hkey hnumber need hneed
    obtain rfl : st.key = k := hkey
    simp only [consider, h.kept j hnumber] at hneed
    split_ifs at hneed with h₁ h₂ h₃
    · obtain rfl := Option.some.inj hneed
      simp [Need.wanted, consider, h₂]
    · obtain rfl := Option.some.inj hneed
      simp [Need.wanted, consider, Decidable.not_not.mp h₂]
  | openPacks j =>
    refine ⟨h.season, h.kept, h.whole, ?_⟩
    intro hkey hnumber need hneed
    obtain rfl : st.key = k := hkey
    simp only [consider, h.kept j hnumber] at hneed
    split_ifs at hneed with h₁
    obtain rfl := Option.some.inj hneed
    simp [Need.wanted, consider, (not_or.mp h₁).2]

theorem intact_download (h : Intact start k n st) : Intact start k n (env.download st p).1 := by
  simp only [download]
  split
  · exact h.congr rfl rfl ⟨rfl, rfl⟩ rfl
  · exact h.congr rfl rfl ⟨rfl, rfl⟩ rfl

/-- Taking episodes off a needed season of another number. -/
theorem intact_takeEpisodes (h : Intact start k n st) (hkey : st.key = k')
    (hother : k' = k → (start.slot k st.tv).number ≠ n) :
    Intact start k n (st.takeEpisodes k' (st.slot k' st.tv).number need taken) := by
  have hloop : (st.takeEpisodes k' (st.slot k' st.tv).number need taken).key = st.key ∧
      (st.takeEpisodes k' (st.slot k' st.tv).number need taken).tv = st.tv := ⟨rfl, rfl⟩
  by_cases hk : k' = k
  · subst hk
    have hnumber := hother rfl
    have hslot : ∀ j, (st.takeEpisodes k' (st.slot k' st.tv).number need taken).slot k' j =
        (Need.updateEpisodes (st.slot k' st.tv).number (need.filter (· ∉ taken))
          (st.needs k')).getD j ⟨none, [], 0, 0, false⟩ := by
      intro j
      simp [Batch.slot, Batch.takeEpisodes]
    refine ⟨?_, ?_, h.whole, ?_⟩
    · intro j
      rw [hslot, Need.getD_updateEpisodes.1]
      exact h.season j
    · intro j hj
      rw [hslot, Need.getD_updateEpisodes.2]
      · exact h.kept j hj
      · intro hseason
        have hsame : (st.slot k' j).number = (st.slot k' st.tv).number :=
          Need.number_eq (Need.number_ne_zero _) hseason
        rw [h.number, h.number, hj] at hsame
        exact hnumber hsame.symm
    · intro _ htv
      exact absurd htv hnumber
  · have hneeds : (st.takeEpisodes k' (st.slot k' st.tv).number need taken).needs k = st.needs k := by
      simp [Batch.takeEpisodes, Function.update_of_ne (Ne.symm hk)]
    have hslot := slot_congr hneeds
    refine ⟨?_, ?_, h.whole, ?_⟩
    · intro j
      rw [hslot]
      exact h.season j
    · intro j hj
      rw [hslot]
      exact h.kept j hj
    · intro hk'
      exact absurd (hkey.symm.trans (hloop.1.symm.trans hk')) hk

/-- Dropping the seasons of a pack that has not the number. -/
theorem intact_pack (h : Intact start k n st)
    (hother : k' = k → n ∉ (st.items i).media.getSeasonList.map Nat.cast ∧
      0 ∉ (st.items i).media.getSeasonList) :
    Intact start k n (env.credit st id (.pack k' i)) := by
  by_cases hk : k' = k
  · subst hk
    obtain ⟨hn, hzero⟩ := hother rfl
    have hslot : ∀ j, (env.credit st id (.pack k' i)).slot k' j =
        if (st.slot k' j).inPack (st.items i).media.getSeasonList then
          { st.slot k' j with live := false }
        else st.slot k' j := by
      intro j
      simp only [Batch.slot, credit, Function.update_self]
      exact Need.getD_dropSeasons rfl
    refine ⟨?_, ?_, ?_, h.need⟩
    · intro j
      rw [hslot, ← h.season j]
      split <;> rfl
    · intro j hj
      rw [hslot, if_neg]
      · exact h.kept j hj
      · intro hpack
        have hmem := Need.number_mem_of_inPack hzero hpack
        rw [h.number, hj] at hmem
        exact hn hmem
    · intro whole hwhole
      simp only [credit, Function.update_self, Option.map_eq_some_iff] at hwhole
      obtain ⟨whole, hwhole, rfl⟩ := hwhole
      intro hmem
      exact h.whole whole hwhole (List.mem_filter.mp hmem).1
  · refine h.congr ?_ ?_ ⟨rfl, rfl⟩ rfl
    · simp [credit, Function.update_of_ne (Ne.symm hk)]
    · simp [credit, Function.update_of_ne (Ne.symm hk)]

/-- What a download that was added takes off leaves the season alone, unless it is for it. -/
theorem intact_credit (h : Intact start k n st) (hloop : p.loop = none ∨ p.loop = some (st.key, st.tv))
    (hpack : ∀ i, p = .pack k i → n ∉ (st.items i).media.getSeasonList.map Nat.cast ∧
      0 ∉ (st.items i).media.getSeasonList)
    (hother : p.loop = some (k, st.tv) → (start.slot k st.tv).number ≠ n) :
    Intact start k n (env.credit st id p) := by
  cases p with
  | film i name => exact h.congr rfl rfl ⟨rfl, rfl⟩ rfl
  | pack k' i =>
    refine intact_pack h ?_
    rintro rfl
    exact hpack i rfl
  | episode k' j i need relative =>
    obtain ⟨rfl, rfl⟩ := by simpa [Plan.loop] using hloop
    exact intact_takeEpisodes h rfl (by rintro rfl; exact hother rfl)
  | magnet k' j i need =>
    obtain ⟨rfl, rfl⟩ := by simpa [Plan.loop] using hloop
    simp only [credit]
    split
    · exact h
    · exact h
    · split
      · exact h
      · exact intact_takeEpisodes (h.framed (st.framed_setItem _ _)) rfl
          (by rintro rfl; exact hother rfl)
  | unpack k' j i need relative =>
    obtain ⟨rfl, rfl⟩ := by simpa [Plan.loop] using hloop
    exact intact_takeEpisodes (h.framed (st.framed_setItem _ _)) rfl
      (by rintro rfl; exact hother rfl)

/-! ## What a turn adds for a season -/

/-- The turn adds no torrent for the season: the candidate is no pack for what is needed and
has not only episodes that are wanted, or its download fails. -/
def Refused (env : DownloadEnv) (start : Batch) (k : IdValue) (n : ℤ) (st : Batch) (t : Turn) :
    Prop :=
  st.raised = false → st.key = k → match t with
    | .pack i => n ∈ (st.items i).media.getSeasonList.map Nat.cast → env.PackOffer st i →
        env.add st.log.length ((env.fetchUrl st i).items i) false = none
    | .episode i => (start.slot k st.tv).number = n → st.need ≠ none → ∀ relative,
        env.EpisodeOffer st (start.slot k st.tv).wanted i relative →
          env.add st.log.length (((env.linked st i).items i).withEpisodes relative) false = none
    | .unpack i => (start.slot k st.tv).number = n → st.need ≠ none →
        (start.slot k st.tv).wanted ≠ [] → env.UnpackOffer st (start.slot k st.tv).wanted i →
          env.add st.log.length ((env.fetchUrl st i).items i) true = none
    | _ => True

/-- A turn adds a torrent for a season exactly where its candidate offers it. -/
theorem refused_iff (h : Intact start k n st) (t : Turn) :
    (∀ a ∈ env.attempts st t, ¬a.Added k n) ↔ env.Refused start k n st t := by
  simp only [mem_attempts, Refused]
  cases t with
  | film i =>
    refine iff_of_true ?_ (by simp)
    rintro a ⟨-, st', p, hp, rfl⟩ ⟨-, hkey, -⟩
    obtain ⟨name, rfl⟩ := env.considerFilm_plan hp
    simp [attempt, Plan.key] at hkey
  | openSeasons k' => simp [consider]
  | openSeries k' => simp [consider]
  | openEpisodes j => simp [consider]
  | openPacks j => simp [consider]
  | pack i =>
    simp only [consider, considerPack_iff]
    constructor
    · intro hall hraised hkey hn hoffer
      by_contra hadd
      refine hall _ ⟨hraised, _, _, ⟨hoffer, rfl, rfl⟩, rfl⟩ ⟨?_, ?_, ?_⟩
      · simpa [attempt, Plan.place, Plan.paused, log_fetchUrl] using hadd
      · simp [attempt, Plan.key, hkey]
      · simpa [attempt, Plan.place, seasons_fetchUrl] using hn
    · rintro hrefused a ⟨hraised, _, _, ⟨hoffer, rfl, rfl⟩, rfl⟩ ⟨hadd, hkey, hn⟩
      have hkey : st.key = k := by simpa [attempt, Plan.key] using hkey
      have hfails := hrefused hraised hkey (by simpa [attempt, Plan.place, seasons_fetchUrl] using hn) hoffer
      exact hadd (by simpa [attempt, Plan.place, Plan.paused, log_fetchUrl] using hfails)
  | episode i =>
    simp only [consider, considerEpisode_iff]
    constructor
    · intro hall hraised hkey hnumber hneed relative hoffer
      by_contra hadd
      obtain ⟨need, hneed⟩ := Option.ne_none_iff_exists'.mp hneed
      obtain rfl := h.need hkey hnumber need hneed
      refine hall _ ⟨hraised, _, _, ⟨_, hneed, relative, hoffer, rfl, rfl⟩, rfl⟩ ⟨?_, ?_, ?_⟩
      · simpa [attempt, Plan.place, Plan.paused, log_linked, Batch.setItem] using hadd
      · simp [attempt, Plan.key, hkey]
      · have hseason := hoffer.season
        subst hkey
        rw [h.number, hnumber] at hseason
        simp [attempt, Plan.place, Batch.setItem, seasons_withEpisodes, seasons_linked, hseason]
    · rintro hrefused a ⟨hraised, _, _, ⟨need, hneed, relative, hoffer, rfl, rfl⟩, rfl⟩ ⟨hadd, hkey, hn⟩
      obtain rfl : st.key = k := by simpa [attempt, Plan.key] using hkey
      have hnumber : (start.slot st.key st.tv).number = n := by
        have hseason := hoffer.season
        rw [h.number] at hseason
        simp only [attempt, Plan.place, Batch.setItem, Function.update_self, seasons_withEpisodes,
          seasons_linked, hseason, List.mem_singleton] at hn
        exact hn.symm
      obtain rfl := h.need rfl hnumber need hneed
      have hfails := hrefused hraised rfl hnumber (by simp [hneed]) relative hoffer
      exact hadd (by simpa [attempt, Plan.place, Plan.paused, log_linked, Batch.setItem] using hfails)
  | unpack i =>
    have hplace : ∀ need, (env.unpackPlan st need i).place = i ∧
        (env.unpackPlan st need i).key = some st.key ∧ (env.unpackPlan st need i).paused = true := by
      intro need
      simp only [unpackPlan]
      split <;> exact ⟨rfl, rfl, rfl⟩
    simp only [consider, considerUnpack_iff]
    constructor
    · intro hall hraised hkey hnumber hneed hne hoffer
      by_contra hadd
      obtain ⟨need, hneed⟩ := Option.ne_none_iff_exists'.mp hneed
      obtain rfl := h.need hkey hnumber need hneed
      refine hall _ ⟨hraised, _, _, ⟨_, hneed, hne, hoffer, rfl, rfl⟩, rfl⟩ ⟨?_, ?_, ?_⟩
      · simpa [attempt, hplace, log_fetchUrl] using hadd
      · simp [attempt, hplace, hkey]
      · have hseason := hoffer.season
        subst hkey
        rw [h.number, hnumber] at hseason
        simp [attempt, hplace, seasons_fetchUrl, hseason]
    · rintro hrefused a ⟨hraised, _, _, ⟨need, hneed, hne, hoffer, rfl, rfl⟩, rfl⟩ ⟨hadd, hkey, hn⟩
      obtain rfl : st.key = k := by simpa [attempt, hplace] using hkey
      have hnumber : (start.slot st.key st.tv).number = n := by
        have hseason := hoffer.season
        rw [h.number] at hseason
        simp only [attempt, hplace, seasons_fetchUrl, hseason, List.mem_singleton] at hn
        exact hn.symm
      obtain rfl := h.need rfl hnumber need hneed
      have hfails := hrefused hraised rfl hnumber (by simp [hneed]) hne hoffer
      exact hadd (by simpa [attempt, hplace, log_fetchUrl] using hfails)

/-- A pack that is taken has a season of a number that is looked for. -/
theorem PackOffer.zero_notMem (h : Intact start k n st) (hkey : st.key = k)
    (hoffer : env.PackOffer st i) : 0 ∉ (st.items i).media.getSeasonList := by
  intro hzero
  obtain ⟨whole, hwhole, hseasons⟩ := hoffer.seasons
  exact h.whole whole (hkey ▸ hwhole) (by simpa using hseasons 0 hzero)

/-- The plan of a turn is for the series and the needed season of the loops. -/
theorem consider_plan {t : Turn} (h : env.consider st t = (st', some p)) :
    (st'.key = st.key ∧ st'.tv = st.tv) ∧
      (∀ k i, p = .pack k i → k = st.key ∧ env.PackOffer st i ∧
        (st'.items i).media.getSeasonList = (st.items i).media.getSeasonList) ∧
      (∀ slot, p.loop = some slot → slot = (st.key, st.tv) ∧ p.key = some st.key ∧
        (st'.items p.place).media.getSeasonList.map Nat.cast =
          [(st.slot st.key st.tv).number]) := by
  have hframe : ∀ {st'}, st.Framed st' → st'.key = st.key ∧ st'.tv = st.tv := by
    rintro _ ⟨_, _, rfl⟩
    exact ⟨rfl, rfl⟩
  cases t with
  | film i =>
    obtain ⟨name, rfl⟩ := env.considerFilm_plan h
    have hst := @framed_considerFilm env st i
    rw [consider] at h
    rw [h] at hst
    exact ⟨hframe hst, by simp, by simp [Plan.loop]⟩
  | pack i =>
    obtain ⟨hoffer, rfl, rfl⟩ := env.considerPack_iff.mp h
    refine ⟨hframe env.framed_fetchUrl, ?_, by simp [Plan.loop]⟩
    rintro _ _ ⟨rfl, rfl⟩
    exact ⟨rfl, hoffer, env.seasons_fetchUrl⟩
  | episode i =>
    obtain ⟨need, hneed, relative, hoffer, rfl, rfl⟩ := env.considerEpisode_iff.mp h
    obtain ⟨hkey, htv, -⟩ := @linked_loop env st i
    refine ⟨⟨hkey, htv⟩, by simp, ?_⟩
    rintro _ ⟨rfl⟩
    refine ⟨rfl, rfl, ?_⟩
    rw [← hoffer.season]
    simp [Plan.place, Batch.setItem, seasons_withEpisodes, seasons_linked]
  | unpack i =>
    obtain ⟨need, hneed, hne, hoffer, rfl, rfl⟩ := env.considerUnpack_iff.mp h
    have hplan : (env.unpackPlan st need i).place = i ∧
        (env.unpackPlan st need i).key = some st.key ∧
          (env.unpackPlan st need i).loop = some (st.key, st.tv) ∧
            ∀ k i', env.unpackPlan st need i ≠ .pack k i' := by
      simp only [unpackPlan]
      split <;> exact ⟨rfl, rfl, rfl, by simp⟩
    obtain ⟨hplace, hkey, hloop, hpack⟩ := hplan
    refine ⟨hframe env.framed_fetchUrl, ?_, ?_⟩
    · intro k i' hp
      exact absurd hp (hpack k i')
    · intro slot hslot
      rw [hloop, Option.some.injEq] at hslot
      exact ⟨hslot.symm, hkey, by rw [hplace, seasons_fetchUrl, hoffer.season]⟩
  | openSeasons k' => simp [consider] at h
  | openSeries k' => simp [consider] at h
  | openEpisodes j => simp [consider] at h
  | openPacks j => simp [consider] at h

/-- A turn that adds nothing for the season leaves its entries as they are. -/
theorem intact_turn (h : Intact start k n st) {t : Turn}
    (hnone : ∀ a ∈ env.attempts st t, ¬a.Added k n) : Intact start k n (env.turn st t) := by
  rw [turn]
  by_cases hraised : st.raised = true
  · rw [if_pos hraised]
    exact h
  rw [if_neg hraised]
  rcases hconsider : env.consider st t with ⟨st', plan⟩
  have hconsidered : Intact start k n st' := by
    have := @intact_consider env start st k n h t
    rwa [hconsider] at this
  cases plan with
  | none => exact hconsidered
  | some p =>
    have hdownloaded := @intact_download env start st' k n p hconsidered
    have hanswer := @id_download env st' p
    have hsame : (env.download st' p).2 ≠ none → (env.download st' p).1.items = st'.items ∧
        (env.download st' p).1.key = st'.key ∧ (env.download st' p).1.tv = st'.tv := by
      simp only [download]
      split <;> simp
    rcases hdownload : env.download st' p with ⟨st'', answer⟩
    rw [hdownload] at hdownloaded hanswer hsame
    simp only [hdownload]
    cases answer with
    | none => exact hdownloaded
    | some id =>
      -- The download went through, so it is not for the season.
      obtain ⟨hitems, hkey, htv⟩ := hsame (by simp)
      obtain ⟨⟨hkey', htv'⟩, hpack, hloop⟩ := consider_plan hconsider
      have hother : p.key = some k →
          n ∉ (st'.items p.place).media.getSeasonList.map Nat.cast := by
        intro hpkey hn
        refine hnone _ (env.mem_attempts.mpr
          ⟨Bool.eq_false_iff.mpr hraised, st', p, hconsider, rfl⟩) ⟨?_, hpkey, hn⟩
        simp [← hanswer]
      have hcredit : Intact start k n (env.credit st'' id p) := by
        refine intact_credit hdownloaded ?_ ?_ ?_
        · cases hp : p.loop with
          | none => exact .inl rfl
          | some slot => exact .inr (by rw [(hloop slot hp).1, hkey, htv, hkey', htv'])
        · intro i hp
          obtain ⟨hk, hoffer, hseasons⟩ := hpack k i hp
          rw [hitems]
          refine ⟨by simpa [hp, Plan.place, Plan.key] using hother, ?_⟩
          rw [hseasons]
          exact PackOffer.zero_notMem h hk.symm hoffer
        · intro hp hnumber
          obtain ⟨hslot, hpkey, hseasons⟩ := hloop _ hp
          obtain ⟨rfl, -⟩ := Prod.mk.inj hslot
          refine hother hpkey ?_
          rw [hseasons, h.number, ← htv', ← htv, hnumber]
          simp
      simp only [settle]
      split
      · exact hcredit
      · exact hcredit.congr rfl rfl ⟨rfl, rfl⟩ rfl

theorem intact_start (needs : Needs) (items : List Candidate) (k : IdValue) (n : ℤ) :
    Intact (Batch.start needs items) k n (Batch.start needs items) := by
  refine ⟨fun _ => rfl, fun _ _ => rfl, ?_, ?_⟩
  · intro whole hwhole hzero
    simp only [Batch.start, Option.ite_none_left_eq_some] at hwhole
    obtain ⟨-, hwhole⟩ := hwhole
    obtain rfl := Option.some.inj hwhole
    obtain ⟨x, -, hx⟩ := List.mem_map.mp hzero
    exact Need.number_ne_zero x hx
  · simp [Batch.start]

/-- **When a batch adds no torrent for a season**: at every turn, the candidate is no pack for
seasons that are needed whole and does not have wanted episodes only, or its download fails. -/
theorem none_added_iff (needs : Needs) (items : List Candidate) (k : IdValue) (n : ℤ) :
    (∀ a ∈ (env.batchDownload needs items).log, ¬a.Added k n) ↔
      Run.Along env.turn (env.Refused (Batch.start needs items) k n) (Batch.start needs items)
        (env.batchTurns needs items) := by
  rw [forall_log_batch_iff]
  exact Run.along_congr_of_kept _ (fun _ t h => refused_iff h t) (fun _ _ h hnone => intact_turn h hnone)
    (intact_start needs items k n)

end DownloadEnv

/-! ## The rounds -/

/-- `get_rss_tv_episodes`; no episode has a negative number. -/
def getRssTvEpisodes (stored : Option Text) : Option (List ℕ) :=
  stored.map fun text => ((text.splitOn ',').map strip).filterMap fun token =>
    (parseInt token).map Int.toNat

/-- The needed season of a subscription's search. -/
def searchFiling (m : MediaInfo) (s : SubscribeInfo) (season : ℤ) (total offset : ℕ)
    (stored : Option (List ℕ)) : Filing where
  key := mediaKey m
  entry :=
    { season := season
      episodes := match stored with
        | some episodes => episodes
        | none =>
          if s.currentEp ≠ 0 then List.range' s.currentEp (total + 1 - s.currentEp)
          else List.range' 1 total
      totalEpisodes := total
      episodeOffset := offset }
  media := m
  info := s

/-- A round that looks for what a subscription lacks. -/
inductive Round
  /-- A search, which finds the candidates; it may find the season locked. -/
  | search (check : CheckEnv) (library : LibraryState) (dl : DownloadEnv) (locked : Bool)
      (f : Filing) (candidates : List Candidate)
  /-- A round over the items of the feeds. -/
  | rss (env : RoundEnv) (rssMovies rssTvs : List SubscribeInfo) (items : List RssItem)

namespace Round

/-- What the downloader is handed; nothing where a search ends before. -/
def needs : Round → Option Needs
  | search check library _ locked f _ =>
    if locked then none
    else if f.info.overEdition then some (fileNeed Dict.empty f)
    else match check.handOn library Dict.empty f with
      | .ok passed => passed
      | .error _ => none
  | rss env rssMovies rssTvs items => some (env.needs rssMovies rssTvs items)

def candidates : Round → List Candidate
  | search _ _ _ _ _ candidates => candidates
  | rss env rssMovies rssTvs items =>
    (env.matchedTorrents rssMovies rssTvs items).map env.candidate

def dl : Round → DownloadEnv
  | search _ _ dl _ _ _ => dl
  | rss env _ _ _ => env.dl

/-- The calls of `download` in a round. -/
def log (r : Round) : List Attempt :=
  match r.needs with
  | none => []
  | some needs => (r.dl.batchDownload needs r.candidates).log

/-- The round files a season from the stored list of a subscription; of the items of a feed,
the last one that files the season counts. -/
def Files (stored : Option (List ℕ)) (f : Filing) : Round → Prop
  | search _ _ _ _ f' _ =>
    f' = f ∧ f = searchFiling f.media f.info f.entry.season f.entry.totalEpisodes
      f.entry.episodeOffset stored
  | rss env rssMovies rssTvs items =>
    env.rss.subscribeTvEpisodes f.info.id = stored ∧
      ∃ before item after t, items = before ++ item :: after ∧
        env.rss.verdict rssMovies rssTvs item = .file f t ∧
          ∀ item' ∈ after, ∀ f' t', env.rss.verdict rssMovies rssTvs item' = .file f' t' →
            f'.key = f.key → f'.entry.season ≠ f.entry.season

end Round

/-! ## An empty list on its way to the downloader -/

variable {target source : Needs} {title k : IdValue} {x : NeedEntry} {f f' : Filing} {needs : Needs}

theorem intersectEntry_of_nil (hx : x.episodes = []) (entries : List NeedEntry) :
    intersectEntry entries x = x := by
  rw [intersectEntry]
  split
  · rfl
  · simp [hx]

/-- The comparison with the library leaves an empty list as it is. -/
theorem mem_getIntersectionEpisodes (hx : x.episodes = []) (hmem : x ∈ (target.get k).getD []) :
    x ∈ ((getIntersectionEpisodes target source title).get k).getD [] := by
  rw [getIntersectionEpisodes]
  split_ifs with htitle
  · exact hmem
  · split
    · exact hmem
    · exact hmem
    · rename_i entries _ hsource
      by_cases hk : k = title
      · subst hk
        cases htarget : target.get k with
        | none => simp [htarget] at hmem
        | some old =>
          cases old with
          | nil => simp [htarget] at hmem
          | cons y ys =>
            simp only [Dict.get_set_self, Option.getD_some]
            refine List.mem_map.mpr ⟨x, by simpa [htarget] using hmem, ?_⟩
            exact intersectEntry_of_nil hx entries
      · split <;> simpa [Dict.get_set, hk] using hmem

/-- Filing another season leaves the entry as it is. -/
theorem mem_putSeason_of_ne {entry : NeedEntry} {entries : List NeedEntry} (hx : x ∈ entries)
    (hne : entry.season ≠ x.season) : x ∈ putSeason entry entries := by
  induction entries with
  | nil => simp at hx
  | cons e es ih =>
    rw [putSeason]
    rcases List.mem_cons.mp hx with rfl | hx
    · simp [Ne.symm hne]
    · split_ifs
      · exact List.mem_cons_of_mem _ hx
      · exact List.mem_cons_of_mem _ (ih hx)

theorem mem_fileNeed : f.entry ∈ ((fileNeed needs f).get f.key).getD [] := by
  simpa [fileNeed] using mem_putSeason f.entry _

theorem mem_fileNeed_of_ne (hx : x ∈ (needs.get k).getD [])
    (hne : f.key = k → f.entry.season ≠ x.season) : x ∈ ((fileNeed needs f).get k).getD [] := by
  rw [fileNeed, Dict.get_set]
  by_cases hk : k = f.key
  · subst hk
    simpa using mem_putSeason_of_ne hx (hne rfl)
  · simpa [hk] using hx

/-- An item of a feed leaves an entry of an empty list as it is, unless it files the season. -/
theorem mem_pollItem (env : RssEnv) {rssMovies rssTvs : List SubscribeInfo} {st : RoundState}
    {item : RssItem} (hx : x.episodes = []) (hmem : x ∈ (st.needs.get k).getD [])
    (hother : ∀ f' t', env.verdict rssMovies rssTvs item = .file f' t' → f'.key = k →
      f'.entry.season ≠ x.season) :
    x ∈ ((env.pollItem rssMovies rssTvs st item).needs.get k).getD [] := by
  cases hv : env.verdict rssMovies rssTvs item with
  | skip => simpa [RssEnv.pollItem, hv] using hmem
  | take t => simpa [RssEnv.pollItem, hv] using hmem
  | file f' t' =>
    rw [env.needs_pollItem_of_file hv]
    exact mem_getIntersectionEpisodes hx (mem_fileNeed_of_ne hmem (hother f' t' hv))

/-- An empty list that is stored is handed to the downloader as an empty list. -/
theorem Round.entry_mem {r : Round} (hf : r.Files (some []) f) (hneeds : r.needs = some needs) :
    f.entry.episodes = [] ∧ f.entry ∈ (needs.get f.key).getD [] := by
  cases r with
  | search check library dl locked f' candidates =>
    obtain ⟨rfl, hfiling⟩ := hf
    have hnil : f'.entry.episodes = [] := by
      rw [hfiling]
      rfl
    refine ⟨hnil, ?_⟩
    simp only [Round.needs] at hneeds
    split_ifs at hneeds
    · obtain rfl := Option.some.inj hneeds
      exact mem_fileNeed
    · split at hneeds
      · rename_i passed hpassed
        subst hneeds
        simp only [CheckEnv.handOn, Raise.bind_ok_iff] at hpassed
        obtain ⟨checked, -, hpassed⟩ := hpassed
        split_ifs at hpassed
        · simp at hpassed
        · obtain rfl : _ = needs := by simpa using hpassed
          exact mem_getIntersectionEpisodes hnil mem_fileNeed
      · simp at hneeds
  | rss env rssMovies rssTvs items =>
    obtain ⟨hstored, before, item, after, t, rfl, hv, hlast⟩ := hf
    obtain rfl := Option.some.inj hneeds
    have hnil : f.entry.episodes = [] := by
      obtain ⟨⟨season, hfiling⟩, -⟩ := env.rss.verdict_filing hv
      rw [hfiling]
      simp [RssEnv.filing, hstored]
    refine ⟨hnil, ?_⟩
    rw [RoundEnv.needs, RssEnv.poll, List.foldl_append, List.foldl_cons]
    refine Run.invariant (fun st : RoundState => f.entry ∈ (st.needs.get f.key).getD []) ?_ ?_
    · rw [env.rss.needs_pollItem_of_file hv]
      exact mem_getIntersectionEpisodes hnil mem_fileNeed
    · intro st hst item' hitem'
      exact mem_pollItem env.rss hnil hst (hlast item' hitem')

/-- Read by the downloader, an empty list is the whole season. -/
theorem Round.slot_wanted {r : Round} (hf : r.Files (some []) f) (hneeds : r.needs = some needs) :
    ∃ j, ((Batch.start needs r.candidates).slot f.key j).season = some f.entry.season ∧
      ((Batch.start needs r.candidates).slot f.key j).wanted =
        List.range' 1 f.entry.totalEpisodes := by
  obtain ⟨hnil, hmem⟩ := Round.entry_mem hf hneeds
  obtain ⟨j, hj, hget⟩ := List.getElem_of_mem hmem
  have hslot : (Batch.start needs r.candidates).slot f.key j = f.entry.toNeed := by
    simp [Batch.slot, Batch.start, List.getD_eq_getElem?_getD, List.getElem?_eq_getElem hj, hget]
  exact ⟨j, by simp [hslot, NeedEntry.toNeed], by simp [hslot, NeedEntry.toNeed, Need.wanted, hnil]⟩

/-- **When a round adds nothing for a season of which nothing is missing**: the empty list is
handed to the downloader, which takes it for the whole season, and the round adds no torrent
exactly where the search ends before, or no candidate is a pack for seasons that are needed
whole, or has wanted episodes only, unless its download fails. -/
theorem nothing_added_iff (r : Round) (stored : Option Text) (f : Filing)
    (hstored : getRssTvEpisodes stored = some []) (hf : r.Files (getRssTvEpisodes stored) f) :
    (∀ needs, r.needs = some needs → ∃ j,
        ((Batch.start needs r.candidates).slot f.key j).season = some f.entry.season ∧
          ((Batch.start needs r.candidates).slot f.key j).wanted =
            List.range' 1 f.entry.totalEpisodes) ∧
      ((∀ a ∈ r.log, ¬a.Added f.key f.entry.season) ↔ ∀ needs, r.needs = some needs →
        Run.Along r.dl.turn
          (r.dl.Refused (Batch.start needs r.candidates) f.key f.entry.season)
          (Batch.start needs r.candidates) (r.dl.batchTurns needs r.candidates)) := by
  rw [hstored] at hf
  refine ⟨fun needs hneeds => Round.slot_wanted hf hneeds, ?_⟩
  rw [Round.log]
  cases hneeds : r.needs with
  | none => simp
  | some needs => simpa using DownloadEnv.none_added_iff needs r.candidates f.key f.entry.season

/-- A downloader that takes whatever it is handed; the torrent files hold two episodes. -/
def openDownloader : DownloadEnv where
  bySeeders := false
  downloadUrl _ := some none
  torrentEpisodes _ := some [1, 2]
  add _ _ _ := some (of "1")
  tidEpisodes _ := some []
  setFilesFails _ := false
  startFails _ := false
  removeFails _ := false

/-- A season of two episodes of which nothing is missing. -/
def finishedSeason : Filing :=
  searchFiling (CheckEnv.wantedSeason 1) (subscribedSeries none) 1 2 0 (getRssTvEpisodes (some []))

/-- A pack of that season. -/
def seasonPack : Candidate where
  media := { CheckEnv.wantedSeason 1 with enclosure := some (of "http://pt.example/1") }

/-- A search for that season, which finds the pack. -/
def finishedSearch (locked : Bool) : Round :=
  .search CheckEnv.emptyCheck CheckEnv.emptyLibrary openDownloader locked finishedSeason [seasonPack]

/-- A search that finds the season locked adds nothing. -/
theorem locked_search_adds_none : (finishedSearch true).needs = none ∧
    ∀ a ∈ (finishedSearch true).log, ¬a.Added finishedSeason.key finishedSeason.entry.season :=
  ⟨rfl, (nothing_added_iff (finishedSearch true) (some []) finishedSeason (by decide)
    ⟨rfl, rfl⟩).2.mpr (by simp [finishedSearch, Round.needs])⟩

/-- Any other search for it adds the pack. -/
theorem finished_season_added :
    getRssTvEpisodes (some []) = some [] ∧
      (finishedSearch false).Files (getRssTvEpisodes (some [])) finishedSeason ∧
        ¬∀ a ∈ (finishedSearch false).log,
          ¬a.Added finishedSeason.key finishedSeason.entry.season :=
  ⟨by decide, ⟨rfl, rfl⟩, by decide +kernel⟩

end WolfNas
