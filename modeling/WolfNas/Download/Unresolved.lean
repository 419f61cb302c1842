import WolfNas.Download.Films

/-!
# Candidates without a link

A candidate for which no link is found is of no use to a batch.  The batch with such candidates
is compared with the one without them: turn by turn it does the same with the others, as long as
none of them is handed to the downloader and added, and none comes to the episode loop, which
takes the link apart without a look whether there is one.  They also take the slots of their name
in the list of the candidates.

## Main definitions

* `DownloadEnv.unresolved` — no link is found for the candidate.
* `Batch.amid` — the state with other candidates at the other places.
* `Batch.Apart` — the states of a batch with and without some candidates.
* `DownloadEnv.Unaffected` — the other candidates are processed as if those were not there.
* `DownloadEnv.Trips`, `DownloadEnv.Fits` — where they are in the way.

## Main results

* `DownloadEnv.consider_amid` — considering a candidate looks at no other.
* `DownloadEnv.apart_turn_other`, `DownloadEnv.apart_turn_unresolved` — the steps.
* `DownloadEnv.unaffected_iff` — when the other candidates are not affected.
-/

namespace WolfNas

open Text

/-! ## Other candidates at the other places -/

namespace Batch

variable (st : Batch) (i : ℕ) (items : ℕ → Candidate) (log : List Attempt)

/-- The state with other candidates at the other places, and another log. -/
def amid : Batch := { st with items := Function.update items i (st.items i), log := log }

@[simp] theorem items_amid : (st.amid i items log).items i = st.items i := by simp [amid]

@[simp] theorem needs_amid : (st.amid i items log).needs = st.needs := rfl

@[simp] theorem whole_amid : (st.amid i items log).whole = st.whole := rfl

@[simp] theorem names_amid : (st.amid i items log).names = st.names := rfl

@[simp] theorem downloaded_amid : (st.amid i items log).downloaded = st.downloaded := rfl

@[simp] theorem key_amid : (st.amid i items log).key = st.key := rfl

@[simp] theorem tv_amid : (st.amid i items log).tv = st.tv := rfl

@[simp] theorem need_amid : (st.amid i items log).need = st.need := rfl

@[simp] theorem raised_amid : (st.amid i items log).raised = st.raised := rfl

@[simp] theorem slot_amid (k : IdValue) (j : ℕ) :
    (st.amid i items log).slot k j = st.slot k j := rfl

theorem setItem_amid (c : Candidate) :
    (st.amid i items log).setItem i c = (st.setItem i c).amid i items log := by
  simp [amid, setItem]

end Batch

namespace DownloadEnv

variable (env : DownloadEnv) {st : Batch} {i : ℕ} {items : ℕ → Candidate} {log : List Attempt}
  {need released : List ℕ} {t : Turn}

theorem fetchUrl_amid : env.fetchUrl (st.amid i items log) i =
    (env.fetchUrl st i).amid i items log := by
  simp only [fetchUrl, Batch.items_amid]
  split
  · rfl
  · split
    · rfl
    · exact Batch.setItem_amid _ _ _ _ _

theorem considerReleased_amid : considerReleased (st.amid i items log) i need released =
    ((considerReleased st i need released).1.amid i items log,
      (considerReleased st i need released).2) := by
  simp only [considerReleased, Batch.key_amid, Batch.tv_amid, Batch.slot_amid, Batch.items_amid,
    Batch.setItem_amid]
  split <;> rfl

theorem considerFilm_amid : env.considerFilm (st.amid i items log) i =
    ((env.considerFilm st i).1.amid i items log, (env.considerFilm st i).2) := by
  simp only [considerFilm, fetchUrl_amid, Batch.items_amid, Batch.names_amid, Batch.raised_amid]
  split_ifs <;> rfl

theorem considerPack_amid : env.considerPack (st.amid i items log) i =
    ((env.considerPack st i).1.amid i items log, (env.considerPack st i).2) := by
  simp only [considerPack, fetchUrl_amid, Batch.items_amid, Batch.key_amid, Batch.whole_amid,
    Batch.needs_amid, Batch.raised_amid]
  split
  · rfl
  · split_ifs
    · rfl
    · rfl
    · split <;> rfl
    · rfl

theorem considerUnlisted_amid : env.considerUnlisted (st.amid i items log) i need =
    ((env.considerUnlisted st i need).1.amid i items log,
      (env.considerUnlisted st i need).2) := by
  simp only [considerUnlisted, fetchUrl_amid, Batch.items_amid, Batch.raised_amid,
    considerReleased_amid]
  split_ifs
  · rfl
  · split
    · rfl
    · split_ifs
      · rfl
      · split <;> rfl

theorem considerEpisode_amid
    (hin : (st.amid i items log).isIn i st.downloaded = st.isIn i st.downloaded) :
    env.considerEpisode (st.amid i items log) i =
      ((env.considerEpisode st i).1.amid i items log, (env.considerEpisode st i).2) := by
  simp only [considerEpisode, considerUnlisted_amid, considerReleased_amid, Batch.items_amid,
    Batch.need_amid, Batch.key_amid, Batch.tv_amid, Batch.slot_amid, Batch.downloaded_amid, hin]
  split
  · rfl
  · split_ifs <;> rfl

theorem considerUnpack_amid
    (hin : (st.amid i items log).isIn i st.downloaded = st.isIn i st.downloaded) :
    env.considerUnpack (st.amid i items log) i =
      ((env.considerUnpack st i).1.amid i items log, (env.considerUnpack st i).2) := by
  simp only [considerUnpack, fetchUrl_amid, Batch.items_amid, Batch.need_amid, Batch.key_amid,
    Batch.tv_amid, Batch.slot_amid, Batch.downloaded_amid, Batch.raised_amid, hin]
  split
  · rfl
  · rfl
  · split_ifs
    · rfl
    · rfl
    · rfl
    · split
      · rfl
      · split_ifs <;> rfl

/-- **Considering a candidate looks at no other**, but whether it is on the list already. -/
theorem consider_amid (ht : t.place = some i)
    (hin : (st.amid i items log).isIn i st.downloaded = st.isIn i st.downloaded) :
    env.consider (st.amid i items log) t =
      ((env.consider st t).1.amid i items log, (env.consider st t).2) := by
  cases t with
  | film j =>
    obtain rfl : j = i := Option.some.inj ht
    exact env.considerFilm_amid
  | pack j =>
    obtain rfl : j = i := Option.some.inj ht
    exact env.considerPack_amid
  | episode j =>
    obtain rfl : j = i := Option.some.inj ht
    exact env.considerEpisode_amid hin
  | unpack j =>
    obtain rfl : j = i := Option.some.inj ht
    exact env.considerUnpack_amid hin
  | openSeasons k => cases ht
  | openSeries k => cases ht
  | openEpisodes j => cases ht
  | openPacks j => cases ht

/-- The plan of a turn is for its candidate. -/
theorem place_of_consider {st' : Batch} {p : Plan} (h : env.consider st t = (st', some p)) :
    t.place = some p.place := by
  cases t with
  | film j =>
    obtain ⟨-, -, rfl⟩ := env.considerFilm_iff.mp h
    rfl
  | pack j =>
    obtain ⟨-, -, rfl⟩ := env.considerPack_iff.mp h
    rfl
  | episode j =>
    obtain ⟨_, -, _, -, -, rfl⟩ := env.considerEpisode_iff.mp h
    rfl
  | unpack j =>
    obtain ⟨_, -, -, -, -, rfl⟩ := env.considerUnpack_iff.mp h
    rw [place_unpackPlan]
    rfl
  | openSeasons k => simp [consider] at h
  | openSeries k => simp [consider] at h
  | openEpisodes j => simp [consider] at h
  | openPacks j => simp [consider] at h

theorem turn_of_raised (h : st.raised = true) : env.turn st t = st := by rw [turn, if_pos h]

theorem turn_of_none {st' : Batch} (hraised : st.raised = false)
    (h : env.consider st t = (st', none)) : env.turn st t = st' := by
  rw [turn, if_neg (by simp [hraised]), h]

end DownloadEnv

/-! ## The batch with and without some candidates -/

/-- The turn is for none of the bad candidates. -/
def Turn.isOther (bad : ℕ → Bool) (t : Turn) : Bool := t.place.all fun i => !bad i

/-- The states of a batch with and without the bad candidates. -/
structure Batch.Apart (bad : ℕ → Bool) (st st' : Batch) : Prop where
  rest : st' = { st with
    items := st'.items, log := st.log.filter fun a => !bad a.plan.place }
  items : ∀ i, bad i = false → st'.items i = st.items i
  downloaded : ∀ i ∈ st.downloaded, bad i = false

namespace Batch

variable {bad : ℕ → Bool} {st st' s : Batch} {i : ℕ}

theorem Apart.amid (h : st.Apart bad st') (hi : bad i = false) :
    st' = st.amid i st'.items st'.log := by
  have hitems : Function.update st'.items i (st.items i) = st'.items := by
    rw [← h.items i hi, Function.update_eq_self]
  have hlog := congrArg Batch.log h.rest
  rw [Batch.amid, hitems, hlog]
  exact h.rest

theorem Apart.raised (h : st.Apart bad st') : st'.raised = st.raised := by rw [h.rest]

theorem Apart.isIn (h : st.Apart bad st') (hi : bad i = false) :
    st'.isIn i st.downloaded = st.isIn i st.downloaded := by
  simp only [Batch.isIn, decide_eq_decide]
  refine exists_congr fun j => and_congr_right fun hj => ?_
  rw [h.items i hi, h.items j (h.downloaded j hj)]

/-- Considering a candidate changes no other. -/
theorem eq_amid (st : Batch) (i : ℕ) : st = st.amid i st.items st.log := by
  simp [Batch.amid]

end Batch

namespace DownloadEnv

variable {env : DownloadEnv} {bad : ℕ → Bool} {st st' s s' : Batch} {i : ℕ} {p : Plan} {id : Text}
  {t : Turn} {add : ℕ → Candidate → Bool → Option Text}

theorem rest_consider_amid (ht : t.place = some i) :
    (env.consider st t).1 = (env.consider st t).1.amid i st.items st.log := by
  have hamid := st.eq_amid i
  have h := env.consider_amid ht (by rw [← hamid])
  rw [← hamid] at h
  exact congrArg Prod.fst h

/-- Both go on to the same plan. -/
theorem apart_consider (h : st.Apart bad st') (ht : t.place = some i) (hi : bad i = false) :
    (env.consider st t).1.Apart bad (env.consider st' t).1 ∧
      (env.consider st' t).2 = (env.consider st t).2 := by
  have hrest := @rest_consider_amid env st i t ht
  have hamid := h.amid hi
  have hin := h.isIn hi
  rw [hamid] at hin
  have heq := env.consider_amid ht hin
  rw [← hamid] at heq
  obtain ⟨-, hdownloaded, -, hlog⟩ := @rest_consider env st _ t rfl
  refine ⟨?_, by rw [heq]⟩
  rw [heq]
  refine ⟨?_, ?_, ?_⟩
  · rw [hlog, Batch.amid, congrArg Batch.log h.rest]
  · intro j hj
    by_cases hji : j = i
    · rw [hji, Batch.items_amid]
    · rw [hrest]
      simp only [Batch.amid, Function.update_of_ne hji, h.items j hj]
  · rw [hdownloaded]
    exact h.downloaded

/-- The calls differ in nothing, if the answers do not. -/
theorem apart_attempt (h : s.Apart bad s') (hp : bad p.place = false)
    (hadd : add s'.log.length (s.items p.place) p.paused = (env.attempt s p).id) :
    { env with add := add }.attempt s' p = env.attempt s p := by
  have hitem := h.items _ hp
  have hrest := h.rest
  have hid : add s'.log.length (s.items p.place) p.paused =
      env.add s.log.length (s.items p.place) p.paused := hadd
  have hkeeps : ∀ id, { env with add := add }.keeps s' id p = env.keeps s id p := by
    intro id
    rw [hrest]
    cases p <;> rfl
  have hbrought : ∀ id, { env with add := add }.brought s' id p = env.brought s id p := by
    intro id
    rw [hrest]
    cases p <;> rfl
  simp only [attempt, hitem, hid, hkeeps, hbrought]

/-- A call that is added is put on the list, unless its candidate is on it. -/
theorem download_of_some (h : (env.attempt s p).id = some id) : (env.download s p).1 = { s with
    log := s.log ++ [env.attempt s p]
    downloaded := if s.isIn p.place s.downloaded then s.downloaded
      else s.downloaded ++ [p.place] } := by
  simp only [download, h]
  rfl

theorem apart_download (h : s.Apart bad s') (hp : bad p.place = false)
    (ha : { env with add := add }.attempt s' p = env.attempt s p) :
    (env.download s p).1.Apart bad ({ env with add := add }.download s' p).1 := by
  have hisIn := h.isIn hp
  have hitem := h.items _ hp
  have hitems := h.items
  have hrest := h.rest
  have hplace : (!bad (env.attempt s p).plan.place) = true := by simp [attempt, hp]
  have hdownloaded : s'.downloaded = s.downloaded := by rw [hrest]
  cases hid : (env.attempt s p).id with
  | none =>
    rw [download_of_none _ hid, download_of_none _ (by rw [ha, hid]), ha, hitem]
    refine ⟨?_, ?_, h.downloaded⟩
    · conv_lhs => rw [hrest]
      simp [hplace]
    · intro i hi
      by_cases hip : i = p.place
      · simp [hip]
      · simp [hip, hitems i hi]
  | some id =>
    rw [download_of_some hid, download_of_some (by rw [ha, hid]), ha, hdownloaded, hisIn]
    refine ⟨?_, hitems, ?_⟩
    · conv_lhs => rw [hrest]
      simp [hplace]
    · intro i hi
      by_cases hlisted : s.isIn p.place s.downloaded = true
      · exact h.downloaded i (by simpa [hlisted] using hi)
      · simp only [hlisted, Bool.false_eq_true, if_false, List.mem_append, List.mem_singleton] at hi
        rcases hi with hi | rfl
        · exact h.downloaded i hi
        · exact hp

theorem apart_credit (h : s.Apart bad s') (hp : bad p.place = false) :
    (env.credit s id p).Apart bad ({ env with add := add }.credit s' id p) := by
  have hitem := h.items _ hp
  have hitems := h.items
  obtain ⟨items', rfl⟩ : ∃ items', s' = { s with
      items := items', log := s.log.filter fun a => !bad a.plan.place } := ⟨_, h.rest⟩
  -- What is written is what was written; where an item is, it is the item of the place.
  have hset : ∀ i c j, bad j = false → Function.update items' i c j =
      Function.update s.items i c j := by
    intro i c j hj
    by_cases hji : j = i
    · subst hji
      simp
    · simp only [Function.update_of_ne hji]
      exact hitems j hj
  cases p with
  | film i name => exact ⟨rfl, hitems, h.downloaded⟩
  | pack k i =>
    have hitem' : items' i = s.items i := hitem
    simp only [credit, hitem']
    exact ⟨rfl, hitems, h.downloaded⟩
  | episode k j i need relative => exact ⟨rfl, hitems, h.downloaded⟩
  | magnet k j i need =>
    have hitem' : items' i = s.items i := hitem
    simp only [credit]
    have hfiles : { env with add := add }.magnetFiles
        { s with items := items', log := s.log.filter fun a => !bad a.plan.place } k j need id =
        env.magnetFiles s k j need id := rfl
    rw [hfiles]
    split
    · exact ⟨rfl, hitems, h.downloaded⟩
    · exact ⟨rfl, hitems, h.downloaded⟩
    · split
      · exact ⟨rfl, hitems, h.downloaded⟩
      · refine ⟨rfl, ?_, h.downloaded⟩
        simp only [Batch.takeEpisodes, Batch.setItem, hitem']
        exact hset _ _
  | unpack k j i need relative =>
    have hitem' : items' i = s.items i := hitem
    refine ⟨rfl, ?_, h.downloaded⟩
    simp only [credit, Batch.takeEpisodes, Batch.setItem, hitem']
    exact hset _ _

theorem apart_settle (h : s.Apart bad s') (hp : bad p.place = false) :
    (env.settle s id p).Apart bad ({ env with add := add }.settle s' id p) := by
  have hcredit := @apart_credit env bad s s' p id add h hp
  have hkeeps : { env with add := add }.keeps s' id p = env.keeps s id p := by
    rw [h.rest]
    cases p <;> rfl
  simp only [settle, hkeeps]
  split_ifs with hstays
  · exact hcredit
  · obtain ⟨hrest, hitems, hdownloaded⟩ := hcredit
    refine ⟨?_, hitems, hdownloaded⟩
    conv_lhs => rw [hrest]

/-- **A turn for another candidate**, or for none, is the same in both. -/
theorem apart_turn_other (h : st.Apart bad st') (ht : ∀ i, t.place = some i → bad i = false)
    (hadd : ∀ a ∈ env.attempts st t, ∀ c paused, add st'.log.length c paused = a.id) :
    (env.turn st t).Apart bad ({ env with add := add }.turn st' t) := by
  have hraised' := h.raised
  by_cases hraised : st.raised = true
  · rw [turn_of_raised _ hraised, turn_of_raised _ (hraised'.trans hraised)]
    exact h
  · rw [Bool.not_eq_true] at hraised
    cases hplace : t.place with
    | none =>
      obtain ⟨items', rfl⟩ : ∃ items', st' = { st with
          items := items', log := st.log.filter fun a => !bad a.plan.place } := ⟨_, h.rest⟩
      cases t with
      | film i => cases hplace
      | pack i => cases hplace
      | episode i => cases hplace
      | unpack i => cases hplace
      | openSeasons k =>
        rw [turn_of_none _ hraised rfl, turn_of_none _ (hraised'.trans hraised) rfl]
        exact ⟨rfl, h.items, h.downloaded⟩
      | openSeries k =>
        rw [turn_of_none _ hraised rfl, turn_of_none _ (hraised'.trans hraised) rfl]
        exact ⟨rfl, h.items, h.downloaded⟩
      | openEpisodes j =>
        rw [turn_of_none _ hraised rfl, turn_of_none _ (hraised'.trans hraised) rfl]
        exact ⟨rfl, h.items, h.downloaded⟩
      | openPacks j =>
        rw [turn_of_none _ hraised rfl, turn_of_none _ (hraised'.trans hraised) rfl]
        exact ⟨rfl, h.items, h.downloaded⟩
    | some i =>
      obtain ⟨hapart, hplan⟩ := @apart_consider env _ _ _ _ _ h hplace (ht i hplace)
      have hsame : { env with add := add }.consider st' t = env.consider st' t := rfl
      rcases hconsider : env.consider st t with ⟨s, plan⟩
      rcases hconsider' : env.consider st' t with ⟨s', plan'⟩
      rw [hconsider, hconsider'] at hapart hplan
      simp only at hapart hplan
      subst hplan
      cases plan' with
      | none =>
        rw [turn_of_none _ hraised hconsider,
          turn_of_none _ (hraised'.trans hraised) (hsame.trans hconsider')]
        exact hapart
      | some p =>
        have hbad : bad p.place = false := ht _ (env.place_of_consider hconsider)
        have hlog : s'.log = st'.log := (env.rest_consider (congrArg Prod.fst hconsider')).2.2.2
        have hanswer := hadd _ (env.mem_attempts.mpr ⟨hraised, s, p, hconsider, rfl⟩)
        have ha := @apart_attempt env bad s s' p add hapart hbad (by rw [hlog, hanswer])
        rw [turn_of_plan _ hraised hconsider,
          turn_of_plan _ (hraised'.trans hraised) (hsame.trans hconsider'), ha]
        have hdownload := apart_download hapart hbad ha
        cases hid : (env.attempt s p).id with
        | none => exact hdownload
        | some id => exact apart_settle hdownload hbad

/-! ## A turn for a candidate without a link -/

/-- No link is found for the candidate. -/
def unresolved (env : DownloadEnv) (c : Candidate) : Bool :=
  orEmpty c.media.enclosure = [] ∧ (env.downloadUrl c.pageUrl).any fun url => orEmpty url = []

/-- The episode loop comes to a candidate that does not list its episodes, and takes a link apart
that is none. -/
structure Trips (env : DownloadEnv) (st : Batch) (i : ℕ) : Prop where
  running : st.raised = false
  needed : st.need ≠ none
  series : (st.items i).media.type ≠ some .movie
  key : matchesKey st.key (st.items i) = true
  new : st.isIn i st.downloaded = false
  fresh : (st.items i).failed = false
  season : (st.items i).media.getSeasonList.map Nat.cast = [(st.slot st.key st.tv).number]
  unlisted : (st.items i).media.getEpisodeList = []
  link : orEmpty (st.items i).media.enclosure = []
  lookup : env.downloadUrl (st.items i).pageUrl = some none

theorem fetchUrl_unresolved (h : env.unresolved (st.items i) = true) : ∃ url, orEmpty url = [] ∧
    env.downloadUrl (st.items i).pageUrl = some url ∧ env.fetchUrl st i = st.setItem i
      { st.items i with media := { (st.items i).media with enclosure := url } } := by
  simp only [unresolved, decide_eq_true_eq, Option.any_eq_true] at h
  obtain ⟨hlink, url, hurl, hempty⟩ := h
  exact ⟨url, by simpa using hempty, hurl, by simp [fetchUrl, hlink, hurl]⟩

theorem enclosure_withEpisodes (c : Candidate) (l : List ℕ) :
    (c.withEpisodes l).media.enclosure = c.media.enclosure := by
  cases l <;> rfl

theorem pageUrl_withEpisodes (c : Candidate) (l : List ℕ) :
    (c.withEpisodes l).pageUrl = c.pageUrl := by
  cases l <;> rfl

theorem matchRelease_nil {need : List ℕ} {offset : ℕ} {season : ℤ} :
    (matchReleaseEpisodes [] need offset season).1 = [] := by
  simp [matchReleaseEpisodes, sortedSet]

/-- Considering it leaves the others alone, and leads to no exception but the one. -/
theorem consider_unresolved (h : env.unresolved (st.items i) = true) (ht : t.place = some i)
    (hraised : st.raised = false) (htrips : t = .episode i → ¬env.Trips st i) :
    ∃ c, env.unresolved c = true ∧ (env.consider st t).1 = st.setItem i c := by
  obtain ⟨url, hempty, hurl, hfetch⟩ := fetchUrl_unresolved h
  have hstay : st = st.setItem i (st.items i) := by simp [Batch.setItem]
  have hlinked : env.unresolved
      { st.items i with media := { (st.items i).media with enclosure := url } } = true := by
    simp [unresolved, hempty, hurl]
  have hlooked : (env.fetchUrl st i).raised = false := by
    rw [hfetch]
    exact hraised
  have hitem : (env.fetchUrl st i).items i =
      { st.items i with media := { (st.items i).media with enclosure := url } } := by
    rw [hfetch]
    simp [Batch.setItem]
  cases t with
  | film j =>
    obtain rfl : j = i := Option.some.inj ht
    simp only [consider, considerFilm]
    split_ifs
    · exact ⟨_, h, hstay⟩
    · exact ⟨_, hlinked, hfetch⟩
    · exact ⟨_, hlinked, hfetch⟩
  | pack j =>
    obtain rfl : j = i := Option.some.inj ht
    have hcovers : env.packCovers (st.needs st.key)
        { st.items j with media := { (st.items j).media with enclosure := url } } = some false := by
      simp [packCovers, hempty, episodesOf, startsWith]
    simp only [consider, considerPack]
    split
    · exact ⟨_, h, hstay⟩
    · split_ifs with _ hlook
      · exact ⟨_, h, hstay⟩
      · simp [hlooked] at hlook
      · rw [hitem, needs_fetchUrl, hcovers]
        exact ⟨_, hlinked, hfetch⟩
      · exact ⟨_, hlinked, hfetch⟩
  | episode j =>
    obtain rfl : j = i := Option.some.inj ht
    simp only [consider, considerEpisode]
    split
    · exact ⟨_, h, hstay⟩
    · rename_i need hneed
      split_ifs with hskip hlisted
      · exact ⟨_, h, hstay⟩
      · simp only [considerReleased]
        split
        · exact ⟨_, h, hstay⟩
        · rename_i relative _
          refine ⟨_, ?_, rfl⟩
          simp only [unresolved, enclosure_withEpisodes, pageUrl_withEpisodes]
          exact h
      · simp only [considerUnlisted, hlooked, hitem, Bool.false_eq_true, if_false]
        cases url with
        | none =>
          simp only [not_or, Bool.not_eq_true, Bool.not_eq_false',
            Decidable.not_not] at hskip hlisted
          obtain ⟨hseries, hkey, hnew, hfresh, hseason⟩ := hskip
          have hlink : orEmpty (st.items j).media.enclosure = [] := by
            simp only [unresolved, decide_eq_true_eq] at h
            exact h.1
          exact absurd ⟨hraised, by simp [hneed], hseries, by simpa using hkey, hnew, hfresh,
            hseason, hlisted, hlink, hurl⟩ (htrips rfl)
        | some url =>
          obtain rfl : url = [] := hempty
          exact ⟨_, hlinked, hfetch⟩
  | unpack j =>
    obtain rfl : j = i := Option.some.inj ht
    simp only [consider, considerUnpack]
    split
    · exact ⟨_, h, hstay⟩
    · exact ⟨_, h, hstay⟩
    · split_ifs with _ hlook
      · exact ⟨_, h, hstay⟩
      · simp [hlooked] at hlook
      · exact ⟨_, hlinked, hfetch⟩
      · simp only [hitem, episodesOf, hempty, if_true, matchRelease_nil]
        exact ⟨_, hlinked, hfetch⟩
  | openSeasons k => cases ht
  | openSeries k => cases ht
  | openEpisodes j => cases ht
  | openPacks j => cases ht

theorem place_of_mem_attempts {a : Attempt} (ha : a ∈ env.attempts st t) :
    t.place = some a.plan.place := by
  obtain ⟨-, _, p, hconsider, rfl⟩ := env.mem_attempts.mp ha
  exact env.place_of_consider hconsider

theorem attempts_of_mem {a : Attempt} (ha : a ∈ env.attempts st t) : env.attempts st t = [a] := by
  obtain ⟨hraised, s, p, hconsider, rfl⟩ := env.mem_attempts.mp ha
  rw [attempts, if_neg (by simp [hraised]), hconsider]

/-- A turn for a candidate without a link changes the candidate, and is logged. -/
theorem turn_unresolved (hi : env.unresolved (st.items i) = true) (ht : t.place = some i)
    (htrips : t = .episode i → ¬env.Trips st i) (hrefused : ∀ a ∈ env.attempts st t, a.id = none) :
    ∃ c, env.unresolved c = true ∧ env.turn st t = { st with
      items := Function.update st.items i c, log := st.log ++ env.attempts st t } := by
  by_cases hraised : st.raised = true
  · refine ⟨_, hi, ?_⟩
    rw [turn_of_raised _ hraised, attempts, if_pos hraised, List.append_nil,
      Function.update_eq_self]
  · rw [Bool.not_eq_true] at hraised
    obtain ⟨c, hc, hstate⟩ := consider_unresolved hi ht hraised htrips
    rcases hconsider : env.consider st t with ⟨s, plan⟩
    rw [hconsider] at hstate
    simp only at hstate
    subst hstate
    cases plan with
    | none =>
      have hnone : env.attempts st t = [] := by
        rw [attempts, if_neg (by simp [hraised]), hconsider]
      rw [turn_of_none _ hraised hconsider, hnone, List.append_nil]
      exact ⟨c, hc, rfl⟩
    | some p =>
      have hmem := env.mem_attempts.mpr ⟨hraised, _, p, hconsider, rfl⟩
      have hid := hrefused _ hmem
      obtain rfl : p.place = i := Option.some.inj ((env.place_of_consider hconsider).symm.trans ht)
      rw [turn_of_plan _ hraised hconsider, hid, attempts_of_mem hmem]
      simp only
      rw [download_of_none _ hid]
      simp only [Batch.setItem, Function.update_self, Function.update_idem]
      exact ⟨{ c with failed := true }, hc, rfl⟩

/-- **A turn for a candidate without a link** is invisible to the others, unless it is added or
ends the batch. -/
theorem apart_turn_unresolved (h : st.Apart bad st') (hi : env.unresolved (st.items i) = true)
    (hbad : bad i = true) (ht : t.place = some i) (htrips : t = .episode i → ¬env.Trips st i)
    (hrefused : ∀ a ∈ env.attempts st t, a.id = none) : (env.turn st t).Apart bad st' := by
  obtain ⟨c, -, hturn⟩ := turn_unresolved hi ht htrips hrefused
  have hnone : (env.attempts st t).filter (fun a => !bad a.plan.place) = [] := by
    rw [List.filter_eq_nil_iff]
    intro a ha
    obtain rfl : i = a.plan.place := Option.some.inj (ht.symm.trans (place_of_mem_attempts ha))
    simp [hbad]
  rw [hturn]
  refine ⟨?_, ?_, h.downloaded⟩
  · conv_lhs => rw [h.rest]
    simp [hnone]
  · intro j hj
    have hji : j ≠ i := by
      rintro rfl
      simp [hbad] at hj
    simpa [hji] using h.items j hj

/-- A turn changes no item but that of its candidate. -/
theorem items_turn_of_ne {j : ℕ} (ht : t.place ≠ some j) :
    (env.turn st t).items j = st.items j := by
  by_cases hraised : st.raised = true
  · rw [turn_of_raised _ hraised]
  · rw [Bool.not_eq_true] at hraised
    have hconsidered : (env.consider st t).1.items j = st.items j := by
      cases hplace : t.place with
      | none =>
        cases t with
        | film i => cases hplace
        | pack i => cases hplace
        | episode i => cases hplace
        | unpack i => cases hplace
        | openSeasons k => rfl
        | openSeries k => rfl
        | openEpisodes j => rfl
        | openPacks j => rfl
      | some i =>
        have hji : j ≠ i := by
          rintro rfl
          exact ht hplace
        rw [@rest_consider_amid env st i t hplace]
        simp only [Batch.amid, Function.update_of_ne hji]
    rcases hconsider : env.consider st t with ⟨s, plan⟩
    rw [hconsider] at hconsidered
    cases plan with
    | none =>
      rw [turn_of_none _ hraised hconsider]
      exact hconsidered
    | some p =>
      have hjp : j ≠ p.place := by
        rintro rfl
        exact ht (env.place_of_consider hconsider)
      rw [turn_of_plan _ hraised hconsider]
      cases hid : (env.attempt s p).id with
      | none =>
        simp only
        rw [download_of_none _ hid]
        simpa only [Function.update_of_ne hjp] using hconsidered
      | some id =>
        simp only
        obtain ⟨removed, hsettle⟩ := settle_eq (env.download s p).1 id p
        rw [hsettle, download_of_some hid]
        cases p with
        | film i name => exact hconsidered
        | pack k i => exact hconsidered
        | episode k j i need relative => exact hconsidered
        | unpack k j' i need relative =>
          have hji : j ≠ i := hjp
          simpa [credit, Batch.takeEpisodes, Batch.setItem, hji] using hconsidered
        | magnet k j' i need =>
          have hji : j ≠ i := hjp
          simp only [credit]
          split
          · exact hconsidered
          · exact hconsidered
          · split
            · exact hconsidered
            · simpa [Batch.takeEpisodes, Batch.setItem, hji] using hconsidered

/-! ## The list of the candidates -/

/-- The places of the candidates without a link. -/
def unresolvedAt (env : DownloadEnv) (items : List Candidate) (i : ℕ) : Bool :=
  env.unresolved (items.getD i { media := {} })

/-- The candidates the strategies go through where those without a link are not in the list. -/
def resolvedList (env : DownloadEnv) (items : List Candidate) : List ℕ :=
  getDownloadList env.bySeeders 8 (fun i => items.getD i { media := {} })
    ((List.range items.length).filter fun i => !env.unresolvedAt items i)

/-- The candidates of the same name that stand in front of one. -/
def rivals (env : DownloadEnv) (items : List Candidate) (i : ℕ) : List ℕ :=
  let at_ := fun j => items.getD j { media := {} }
  (before (ranked env.bySeeders at_ (List.range items.length)) i).filter fun j =>
    (at_ j).mediaName = (at_ i).mediaName

/-- Those without a link take no slot of their name that another candidate would have. -/
def Fits (env : DownloadEnv) (items : List Candidate) : Prop :=
  ∀ i < items.length, env.unresolvedAt items i = false →
    ((env.rivals items i).filter fun j => !env.unresolvedAt items j).length < 8 →
    (env.rivals items i).length < 8

theorem listed_iff (items : List Candidate) :
    (env.downloadList items).filter (fun i => !env.unresolvedAt items i) = env.resolvedList items ↔
      env.Fits items := by
  have hnodup : (List.range items.length).Nodup := List.nodup_range
  rw [downloadList, resolvedList, getDownloadList_eq_filter hnodup,
    getDownloadList_eq_filter (hnodup.filter _), ← filter_ranked, List.filter_filter,
    List.filter_filter]
  set inOrder := ranked env.bySeeders (fun j => items.getD j { media := {} })
    (List.range items.length) with hinOrder
  -- Fewer stand in front of a candidate when those without a link are not in the list.
  have hfront : ∀ i, env.unresolvedAt items i = false →
      before (inOrder.filter fun i => !env.unresolvedAt items i) i =
        (before inOrder i).filter fun i => !env.unresolvedAt items i := by
    intro i hi
    exact before_filter (p := fun i => !env.unresolvedAt items i) (by simpa using hi) _
  have hrivals : ∀ i, (env.rivals items i).length =
      (before inOrder i).countP fun j => (items.getD j { media := {} }).mediaName =
          (items.getD i { media := {} }).mediaName := by
    intro i
    rw [List.countP_eq_length_filter]
    rfl
  have hothers : ∀ i, ((env.rivals items i).filter fun j => !env.unresolvedAt items j).length =
      ((before inOrder i).filter fun j => !env.unresolvedAt items j).countP
        fun j => (items.getD j { media := {} }).mediaName =
          (items.getD i { media := {} }).mediaName := by
    intro i
    rw [List.countP_eq_length_filter, List.filter_comm]
    rfl
  have hmem : ∀ i, i ∈ inOrder ↔ i < items.length := by
    intro i
    rw [hinOrder, ranked, List.mem_insertionSort, List.mem_range]
  constructor
  · intro h i hi hlink hfew
    have hiff := iff_of_eq (congrArg (i ∈ ·) h)
    simp only [List.mem_filter, hfront i hlink, ← hothers, ← hrivals] at hiff
    simpa [(hmem i).mpr hi, hlink, hfew] using hiff
  · intro h
    refine List.filter_congr fun i hi => ?_
    cases hlink : env.unresolvedAt items i with
    | true => simp
    | false =>
      have hle : ((env.rivals items i).filter fun j => !env.unresolvedAt items j).length ≤
          (env.rivals items i).length := List.length_filter_le _ _
      have hfit := h i ((hmem i).mp hi) hlink
      rw [hfront i hlink, ← hothers, ← hrivals]
      simp only [Bool.not_false, Bool.true_and, Bool.and_true, decide_eq_decide]
      omega

/-! ## The batch -/

theorem turns_filter (keys : List IdValue) (slots : IdValue → ℕ) (list : List ℕ) :
    turns keys slots (list.filter fun i => !bad i) =
      (turns keys slots list).filter (Turn.isOther bad) := by
  have hmap : ∀ body : ℕ → Turn, (∀ i, (body i).place = some i) →
      (list.map body).filter (Turn.isOther bad) = (list.filter fun i => !bad i).map body := by
    intro body hbody
    rw [List.filter_map]
    congr 1
    refine List.filter_congr fun i _ => ?_
    simp [Turn.isOther, hbody]
  have hseason : ∀ opened body : ℕ → Turn, (∀ j, (opened j).place = none) →
      (∀ i, (body i).place = some i) →
      (seasonTurns keys slots list opened body).filter (Turn.isOther bad) =
        seasonTurns keys slots (list.filter fun i => !bad i) opened body := by
    intro opened body hopened hbody
    have hopen : ∀ k, Turn.isOther bad (.openSeries k) = true := fun _ => rfl
    have hother : ∀ j, Turn.isOther bad (opened j) = true := by
      intro j
      simp [Turn.isOther, hopened]
    simp only [seasonTurns, List.filter_flatMap, List.filter_cons, hopen, hother, if_true,
      hmap body hbody]
  have hopen : ∀ k, Turn.isOther bad (.openSeasons k) = true := fun _ => rfl
  simp only [turns, List.filter_append, List.filter_flatMap, List.filter_cons, hopen, if_true,
    hmap .film (fun _ => rfl), hmap .pack (fun _ => rfl),
    hseason .openEpisodes .episode (fun _ => rfl) (fun _ => rfl),
    hseason .openPacks .unpack (fun _ => rfl) (fun _ => rfl)]

/-- The downloader that gives the calls for the other candidates the answers they had. -/
def answering (env : DownloadEnv) (bad : ℕ → Bool) (log : List Attempt) : DownloadEnv :=
  { env with add := fun n _ _ => ((log.filter fun a => !bad a.plan.place)[n]?).bind (·.id) }

/-- The batch that goes through the candidates of a list. -/
def batchOf (env : DownloadEnv) (needs : Needs) (items : List Candidate) (list : List ℕ) : Batch :=
  (turns needs.keys (fun k => ((needs.get k).getD []).length) list).foldl env.turn
    (Batch.start needs items)

/-- **The other candidates are processed as if those without a link were not in the list.** -/
structure Unaffected (env : DownloadEnv) (needs : Needs) (items : List Candidate) : Prop where
  /-- The strategies go through the same other candidates. -/
  listed : (env.downloadList items).filter (fun i => !env.unresolvedAt items i) =
    env.resolvedList items
  /-- No candidate without a link ends the batch. -/
  goesOn : Run.Along env.turn (fun st t => ∀ i, t.place = some i → env.unresolvedAt items i = true →
    (env.turn st t).raised = st.raised) (Batch.start needs items) (env.batchTurns needs items)
  /-- None is downloaded. -/
  untaken : ∀ a ∈ (env.batchDownload needs items).log,
    env.unresolvedAt items a.plan.place = true → a.id = none
  /-- The same is downloaded, and the same is left of the needed seasons. -/
  same : (env.batchDownload needs items).Apart (env.unresolvedAt items)
    ((env.answering (env.unresolvedAt items) (env.batchDownload needs items).log).batchOf needs
      items (env.resolvedList items))

/-- The state of a batch without the bad candidates, and what is left of these. -/
def Beside (env : DownloadEnv) (bad : ℕ → Bool) (st st' : Batch) : Prop :=
  st.Apart bad st' ∧ ∀ i, bad i = true → env.unresolved (st.items i) = true

/-- A turn for a candidate without a link is invisible. -/
def Invisible (env : DownloadEnv) (bad : ℕ → Bool) (st : Batch) (t : Turn) : Prop :=
  ∀ i, t.place = some i → bad i = true →
    (t = .episode i → ¬env.Trips st i) ∧ ∀ a ∈ env.attempts st t, a.id = none

/-- The candidates without a link stay without one. -/
theorem unresolved_turn (h : ∀ i, bad i = true → env.unresolved (st.items i) = true)
    (hinvisible : env.Invisible bad st t) (j : ℕ) (hj : bad j = true) :
    env.unresolved ((env.turn st t).items j) = true := by
  by_cases hplace : t.place = some j
  · obtain ⟨htrips, hrefused⟩ := hinvisible j hplace hj
    obtain ⟨c, hc, hturn⟩ := turn_unresolved (h j hj) hplace htrips hrefused
    simpa [hturn] using hc
  · rw [items_turn_of_ne hplace]
    exact h j hj

/-- The batch goes on beside the one without the bad candidates. -/
theorem beside_run {log : List Attempt} {list : List Turn} (h : env.Beside bad st st')
    (hinvisible : Run.Along env.turn (env.Invisible bad) st list)
    (hlog : log = (list.foldl env.turn st).log) :
    env.Beside bad (list.foldl env.turn st)
      ((list.filter (Turn.isOther bad)).foldl (env.answering bad log).turn st') := by
  have hfront : Run.Along env.turn
      (fun st' t => (env.turn st' t).log <+: (list.foldl env.turn st).log) st list :=
    (Run.along_log_prefix Batch.log env.log_turn).2
  rw [← hlog] at hfront
  refine Run.filter_simulates (env.Beside bad) (Turn.isOther bad)
    (C := fun st t => env.Invisible bad st t ∧ (env.turn st t).log <+: log) ?_ ?_
    (Run.along_and.mpr ⟨hinvisible, hfront⟩) h
  · intro st st' t h hC hother
    obtain ⟨i, hplace, hbad⟩ : ∃ i, t.place = some i ∧ bad i = true := by
      cases hplace : t.place with
      | none => simp [Turn.isOther, hplace] at hother
      | some i => exact ⟨i, rfl, by simpa [Turn.isOther, hplace] using hother⟩
    obtain ⟨htrips, hrefused⟩ := hC.1 i hplace hbad
    exact ⟨apart_turn_unresolved h.1 (h.2 i hbad) hbad hplace htrips hrefused,
      unresolved_turn h.2 hC.1⟩
  · intro st st' t h hC hother
    have hgood : ∀ i, t.place = some i → bad i = false := by
      intro i hplace
      simpa [Turn.isOther, hplace] using hother
    refine ⟨apart_turn_other h.1 hgood ?_, unresolved_turn h.2 hC.1⟩
    -- The answer is the one that stands in the log at this place.
    intro a ha c paused
    obtain ⟨rest, hrest⟩ := hC.2
    have hother : bad a.plan.place = false := hgood _ (place_of_mem_attempts ha)
    have hlog' : st'.log = st.log.filter fun a => !bad a.plan.place := by rw [h.1.rest]
    rw [← hrest, log_turn, attempts_of_mem ha, hlog']
    simp [hother]

/-- The link that is none ends the batch. -/
theorem raised_of_trips (h : env.Trips st i) : (env.turn st (.episode i)).raised = true := by
  obtain ⟨need, hneed⟩ := Option.ne_none_iff_exists'.mp h.needed
  have hfetch : env.fetchUrl st i = st.setItem i
      { st.items i with media := { (st.items i).media with enclosure := none } } := by
    simp [fetchUrl, h.link, h.lookup]
  have hconsider : env.consider st (.episode i) =
      ({ env.fetchUrl st i with raised := true }, none) := by
    simp only [consider, considerEpisode, hneed]
    rw [if_neg (by simp [h.series, h.key, h.new, h.fresh, h.season]),
      if_neg (by simp [h.unlisted]), considerUnlisted, hfetch]
    simp [Batch.setItem, h.running]
  rw [turn_of_none _ h.running hconsider]

/-- **When the other candidates are not affected**: those without a link take none of the slots
of the others, none comes to the episode loop with its episodes unlisted, and the downloader
refuses those it is handed. -/
theorem unaffected_iff (env : DownloadEnv) (needs : Needs) (items : List Candidate) :
    env.Unaffected needs items ↔ env.Fits items ∧
      Run.Along env.turn (env.Invisible (env.unresolvedAt items)) (Batch.start needs items)
        (env.batchTurns needs items) := by
  constructor
  · intro h
    refine ⟨(env.listed_iff items).mp h.listed, ?_⟩
    have huntaken := env.forall_log_batch_iff.mp h.untaken
    refine (Run.along_and.mpr ⟨h.goesOn, huntaken⟩).imp ?_
    intro st t hstep i hplace hbad
    constructor
    · rintro rfl htrips
      have hraised := hstep.1 i hplace hbad
      rw [raised_of_trips htrips, htrips.running] at hraised
      cases hraised
    · intro a ha
      refine hstep.2 a ha ?_
      rwa [← Option.some.inj (hplace.symm.trans (place_of_mem_attempts ha))]
  · rintro ⟨hfits, hinvisible⟩
    have hlisted := (env.listed_iff items).mpr hfits
    have hstart : ∀ i, env.unresolvedAt items i = true →
        env.unresolved ((Batch.start needs items).items i) = true := fun i hi => hi
    refine ⟨hlisted, ?_, ?_, ?_⟩
    · refine Run.Along.of_invariant (fun st : Batch => ∀ i, env.unresolvedAt items i = true →
        env.unresolved (st.items i) = true) hstart hinvisible ?_ ?_
      · intro st t h hC
        exact unresolved_turn h hC
      · intro st t h hC i hplace hbad
        obtain ⟨htrips, hrefused⟩ := hC i hplace hbad
        obtain ⟨c, -, hturn⟩ := turn_unresolved (h i hbad) hplace htrips hrefused
        rw [hturn]
    · refine env.forall_log_batch_iff.mpr (hinvisible.imp ?_)
      intro st t hC a ha hbad
      exact (hC _ (place_of_mem_attempts ha) hbad).2 a ha
    · have hrun : env.Beside (env.unresolvedAt items)
          ((env.batchTurns needs items).foldl env.turn (Batch.start needs items))
          (((env.batchTurns needs items).filter (Turn.isOther (env.unresolvedAt items))).foldl
            (env.answering (env.unresolvedAt items) (env.batchDownload needs items).log).turn
            (Batch.start needs items)) :=
        beside_run ⟨⟨rfl, fun _ _ => rfl, by simp [Batch.start]⟩, hstart⟩ hinvisible rfl
      rw [batchTurns, ← turns_filter, hlisted] at hrun
      exact hrun.1

/-- A candidate for a pack of which no link is found. -/
def unlinkedPack : Candidate := { partialPack with media.enclosure := none }

/-- The lookup finds no link for the first candidate, and the second is not downloaded. -/
theorem unlinked_ends_batch : ¬selecting.Unaffected gapSeason [unlinkedPack, partialPack] ∧
    (selecting.batchDownload gapSeason [unlinkedPack, partialPack]).raised = true ∧
    (selecting.batchDownload gapSeason [unlinkedPack, partialPack]).downloaded = [] ∧
    (selecting.batchDownload gapSeason [partialPack]).downloaded = [0] := by
  have hraised : (selecting.batchDownload gapSeason [unlinkedPack, partialPack]).raised = true := by
    decide +kernel
  refine ⟨?_, hraised, by decide +kernel, by decide +kernel⟩
  intro h
  have hothers := h.same.raised.trans hraised
  revert hothers
  decide +kernel

end DownloadEnv

end WolfNas
