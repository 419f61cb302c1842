import Mathlib.Data.Finset.Max
import WolfNas.Download.Offers

/-!
# One offset for a season

A release may number the episodes of a season from the first season on.  `download_episodes`
reads the offset of every candidate off the episodes that are still outstanding, which become
fewer with every candidate that is added.

## Main definitions

* `lag` — the distance between the first released episode and the first outstanding one.
* `Credited` — what one turn takes off the outstanding episodes.
* `OneOffset` — all candidates of a season are credited under one offset.
* `DownloadEnv.Lags` — a candidate that is added lags behind by a given distance.

## Main results

* `mem_relative` — the episodes a release is taken for are those it has at its lag.
* `DownloadEnv.oneOffset_iff` — when the candidates of a season are credited under one offset.
-/

namespace WolfNas

open Text

/-! ## The offset of a release -/

/-- The distance between the first released episode and the first needed one; none where all
released episodes are needed as they are numbered. -/
def lag (released need : List ℕ) : ℕ :=
  if ∀ e ∈ released, e ∈ need then 0 else released.min?.getD 0 - need.min?.getD 0

variable {released need relative : List ℕ} {d d' e : ℕ} {season : ℤ}

/-- An offset that is inferred is the lag, and no released episode is needed as it is numbered. -/
theorem inferOffset_eq_zero_or :
    inferOffset released need 0 season = 0 ∨
      inferOffset released need 0 season = released.min?.getD 0 - need.min?.getD 0 ∧
        ∀ e ∈ released, e ∉ need := by
  rw [inferOffset]
  split
  · rename_i first least greatest hfirst hleast hgreatest
    split_ifs with hskip hfits
    · exact .inl rfl
    · refine .inr ⟨by simp [hfirst, hleast], ?_⟩
      intro e he hneed
      exact hskip (.inr (.inr (.inl ⟨e, he, hneed⟩)))
    · exact .inl rfl
  · exact .inl rfl

/-- The episodes a release is taken for are those it has at its lag. -/
theorem mem_relative (h : relativeReleaseEpisodes released need 0 season = some relative) :
    e ∈ relative ↔ e + lag released need ∈ released ∧ (lag released need = 0 ∨ 0 < e) := by
  simp only [relativeReleaseEpisodes] at h
  split_ifs at h with hnil hoffset hall
  · obtain rfl := Option.some.inj h
    obtain hzero | ⟨heq, hapart⟩ := @inferOffset_eq_zero_or released need season
    · omega
    · obtain ⟨n, hn⟩ := List.exists_mem_of_ne_nil released hnil
      have hlag : lag released need = inferOffset released need 0 season := by
        rw [lag, if_neg fun hneeded => hapart n hn (hneeded n hn), heq]
      rw [hlag]
      simp only [mem_sortedSet, List.mem_map, List.mem_filter, decide_eq_true_eq]
      constructor
      · rintro ⟨m, ⟨hm, hlt⟩, rfl⟩
        have hadd : m - inferOffset released need 0 season +
            inferOffset released need 0 season = m := by omega
        rw [hadd]
        exact ⟨hm, .inr (by omega)⟩
      · rintro ⟨hm, hpos⟩
        exact ⟨_, ⟨hm, by omega⟩, by omega⟩
  · obtain rfl := Option.some.inj h
    simp [lag, if_pos hall]

/-- Episodes that a release has under an offset are those it has under no other one. -/
theorem offset_unique {taken : List ℕ} (hne : taken ≠ [])
    (h : ∀ e, e ∈ taken ↔ e + d ∈ released ∧ (d = 0 ∨ 0 < e))
    (h' : ∀ e, e ∈ taken ↔ e + d' ∈ released ∧ (d' = 0 ∨ 0 < e)) : d = d' := by
  -- The last of the episodes would not be the last one under another offset.
  have hle : ∀ {d d' : ℕ}, (∀ e, e ∈ taken ↔ e + d ∈ released ∧ (d = 0 ∨ 0 < e)) →
      (∀ e, e ∈ taken ↔ e + d' ∈ released ∧ (d' = 0 ∨ 0 < e)) → d' ≤ d := by
    intro d d' h h'
    obtain ⟨n, hn⟩ := List.exists_mem_of_ne_nil taken hne
    obtain ⟨m, hm, hmax⟩ := taken.toFinset.exists_max_image id ⟨n, List.mem_toFinset.mpr hn⟩
    by_contra hlt
    have hlater : m + (d' - d) ∈ taken := by
      refine (h _).mpr ⟨?_, .inr (by omega)⟩
      have hadd : m + (d' - d) + d = m + d' := by omega
      rw [hadd]
      exact ((h' m).mp (List.mem_toFinset.mp hm)).1
    have hbound := hmax _ (List.mem_toFinset.mpr hlater)
    simp only [id_eq] at hbound
    omega
  exact le_antisymm (hle h' h) (hle h h')

/-! ## What a turn takes off -/

/-- What one turn takes off the outstanding episodes of a needed season. -/
structure Credited where
  key : IdValue
  season : ℤ
  /-- The configured offset. -/
  offset : ℕ
  /-- The episodes the candidate has. -/
  released : List ℕ
  /-- The outstanding episodes before. -/
  need : List ℕ
  removed : List ℕ
  /-- A torrent was added. -/
  added : Bool

/-- It is one of the season of a series, for which no offset is configured. -/
def Credited.Of (k : IdValue) (n : ℤ) (r : Credited) : Prop :=
  r.key = k ∧ r.season = n ∧ r.offset = 0

instance (k : IdValue) (n : ℤ) (r : Credited) : Decidable (r.Of k n) := by
  unfold Credited.Of
  infer_instance

/-- The candidate has exactly the removed episodes under the offset. -/
def Credited.Under (d : ℕ) (r : Credited) : Prop :=
  r.added = true ∧ ∀ e, e ∈ r.removed ↔ e + d ∈ r.released ∧ (d = 0 ∨ 0 < e)

/-- All that is removed from a season is in the candidates under one offset, and candidates
with the same episodes are credited with the same ones. -/
structure OneOffset (k : IdValue) (n : ℤ) (all : List Credited) : Prop where
  contained : ∃ d, ∀ r ∈ all, r.Of k n → r.removed ≠ [] → r.Under d
  same : ∀ r ∈ all, ∀ r' ∈ all, r.Of k n → r'.Of k n → r.removed ≠ [] → r'.removed ≠ [] →
    (∀ e, e ∈ r.released ↔ e ∈ r'.released) → ∀ e, e ∈ r.removed ↔ e ∈ r'.removed

/-- Under one offset, the episodes of a candidate decide with which ones it is credited. -/
theorem oneOffset_iff_contained {k : IdValue} {n : ℤ} {all : List Credited} :
    OneOffset k n all ↔ ∃ d, ∀ r ∈ all, r.Of k n → r.removed ≠ [] → r.Under d := by
  constructor
  · exact OneOffset.contained
  · rintro ⟨d, h⟩
    refine ⟨⟨d, h⟩, ?_⟩
    intro r hr r' hr' hof hof' hne hne' hreleased e
    rw [(h r hr hof hne).2, (h r' hr' hof' hne').2, hreleased]

namespace DownloadEnv

variable (env : DownloadEnv) {st : Batch} {k : IdValue} {n : ℤ} {i : ℕ} {t : Turn}

/-- What a turn of `download_episodes` takes off. -/
def credited (st : Batch) : Turn → List Credited
  | .episode i => match st.need, (env.turn st (.episode i)).need with
    | some need, some left =>
      [{ key := st.key
         season := (st.slot st.key st.tv).number
         offset := (st.slot st.key st.tv).episodeOffset
         released := (env.releasedEpisodes st i).getD []
         need := need
         removed := need.filter (· ∉ left)
         added := (env.attempts st (.episode i)).any fun a => a.id.isSome }]
    | _, _ => []
  | _ => []

/-- The turn takes the candidate for needed episodes, and its download is added. -/
structure AddedOffer (st : Batch) (i : ℕ) (need relative : List ℕ) : Prop where
  running : st.raised = false
  need_eq : st.need = some need
  offer : env.EpisodeOffer st need i relative
  added : env.add st.log.length (((env.linked st i).items i).withEpisodes relative) false ≠ none

/-- A candidate that is added is credited: its episodes are taken off the outstanding ones, and
off the needed season. -/
theorem turn_of_added (h : env.AddedOffer st i need relative) :
    (env.turn st (.episode i)).need = some (need.filter (· ∉ relative)) ∧
      (env.turn st (.episode i)).needs = Function.update st.needs st.key
        (Need.updateEpisodes (st.slot st.key st.tv).number (need.filter (· ∉ relative))
          (st.needs st.key)) ∧
      (env.attempts st (.episode i)).any (fun a => a.id.isSome) = true := by
  obtain ⟨id, hid⟩ := Option.ne_none_iff_exists'.mp h.added
  have hconsider : env.consider st (.episode i) = (_, some _) :=
    env.considerEpisode_iff.mpr ⟨need, h.need_eq, relative, h.offer, rfl, rfl⟩
  have hneeds : (env.linked st i).needs = st.needs := (env.slot_linked st.key st.tv).2
  simp [turn, attempts, h.running, hconsider, download, attempt, Plan.place, Plan.paused, Batch.setItem,
    log_linked, hid, settle, keeps, credit, Batch.takeEpisodes, hneeds, Batch.slot]

/-- Any other candidate leaves the needed seasons alone. -/
theorem turn_of_not_added (h : ∀ need relative, ¬env.AddedOffer st i need relative) :
    (env.turn st (.episode i)).need = st.need ∧ (env.turn st (.episode i)).needs = st.needs := by
  rw [turn]
  by_cases hraised : st.raised = true
  · rw [if_pos hraised]
    exact ⟨rfl, rfl⟩
  rw [if_neg hraised]
  rcases hconsider : env.consider st (.episode i) with ⟨st', plan⟩
  have hframe := @framed_considerEpisode env st i
  rw [consider] at hconsider
  rw [hconsider] at hframe
  obtain ⟨_, _, hst'⟩ := hframe
  simp only at hst'
  cases plan with
  | none => simp [hst']
  | some p =>
    obtain ⟨need, hneed, relative, hoffer, hst'', rfl⟩ := env.considerEpisode_iff.mp hconsider
    have hfails : env.add st.log.length (((env.linked st i).items i).withEpisodes relative) false =
        none := by
      by_contra hadd
      exact h need relative ⟨Bool.eq_false_iff.mpr hraised, hneed, hoffer, hadd⟩
    have hid : (env.download st' (.episode st.key st.tv i need relative)).2 = none := by
      rw [id_download, hst'']
      simpa [attempt, Plan.place, Plan.paused, Batch.setItem, log_linked] using hfails
    have hrest : (env.download st' (.episode st.key st.tv i need relative)).1.need = st.need ∧
        (env.download st' (.episode st.key st.tv i need relative)).1.needs = st.needs := by
      simp only [download]
      split <;> simp [hst', Batch.setItem]
    rcases hdownload : env.download st' (.episode st.key st.tv i need relative) with ⟨st'', id⟩
    rw [hdownload] at hid hrest
    obtain rfl : id = none := hid
    simpa [hdownload] using hrest

/-- The turn adds no candidate that is credited with episodes of the season, or it is one that
lags behind the outstanding ones by the distance. -/
def Lags (k : IdValue) (n : ℤ) (d : ℕ) (st : Batch) : Turn → Prop
  | .episode i => st.key = k → (st.slot st.key st.tv).number = n →
      (st.slot st.key st.tv).episodeOffset = 0 → ∀ need relative, relative ≠ [] →
        env.AddedOffer st i need relative → ∀ released, env.releasedEpisodes st i = some released →
          lag released need = d
  | _ => True

/-- What a candidate that is added takes off. -/
theorem mem_credited_of_added (h : env.AddedOffer st i need relative) : ∃ released removed,
    env.releasedEpisodes st i = some released ∧
      env.credited st (.episode i) = [⟨st.key, (st.slot st.key st.tv).number,
        (st.slot st.key st.tv).episodeOffset, released, need, removed, true⟩] ∧
      ∀ e, e ∈ removed ↔ e ∈ relative := by
  obtain ⟨hneed, -, hadded⟩ := env.turn_of_added h
  obtain ⟨released, hreleased, hrelative⟩ := h.offer.episodes
  refine ⟨released, need.filter (· ∉ need.filter (· ∉ relative)), hreleased, ?_, ?_⟩
  · simp [credited, h.need_eq, hneed, hreleased, hadded]
  · intro e
    have hsub : e ∈ relative → e ∈ need := mem_need_of_relative hrelative
    simp only [List.mem_filter, decide_eq_true_eq]
    tauto

/-- A candidate that is added is credited under the offset exactly where it lags by it. -/
theorem under_iff_of_added (h : env.AddedOffer st i need relative) :
    (∀ r ∈ env.credited st (.episode i), r.Of k n → r.removed ≠ [] → r.Under d) ↔
      env.Lags k n d st (.episode i) := by
  obtain ⟨released, removed, hreleased, hcredited, hremoved⟩ := env.mem_credited_of_added h
  obtain ⟨released', hreleased', hrelative⟩ := h.offer.episodes
  obtain rfl : released = released' := Option.some.inj (hreleased.symm.trans hreleased')
  have hnil : removed ≠ [] ↔ relative ≠ [] := by
    rw [not_iff_not, List.eq_nil_iff_forall_not_mem, List.eq_nil_iff_forall_not_mem]
    simp only [hremoved]
  have hlag : (st.slot st.key st.tv).episodeOffset = 0 → ∀ e, e ∈ removed ↔
      e + lag released need ∈ released ∧ (lag released need = 0 ∨ 0 < e) := by
    intro hzero e
    rw [hzero] at hrelative
    rw [hremoved, mem_relative hrelative]
  simp only [hcredited, List.mem_singleton, forall_eq, Credited.Of, Credited.Under, Lags, true_and]
  constructor
  · intro hunder hkey hnumber hzero need' relative' hne' h' released' hreleased'
    obtain rfl : need = need' := Option.some.inj (h.need_eq.symm.trans h'.need_eq)
    obtain rfl : released = released' := Option.some.inj (hreleased.symm.trans hreleased')
    obtain ⟨released', hreleased', hrelative'⟩ := h'.offer.episodes
    obtain rfl : released = released' := Option.some.inj (hreleased.symm.trans hreleased')
    obtain rfl : relative = relative' := Option.some.inj (hrelative.symm.trans hrelative')
    exact offset_unique (hnil.mpr hne') (hlag hzero) (hunder ⟨hkey, hnumber, hzero⟩ (hnil.mpr hne'))
  · intro hlags hof hne
    obtain rfl := hlags hof.1 hof.2.1 hof.2.2 need relative (hnil.mp hne) h released hreleased
    exact hlag hof.2.2

/-- What a turn takes off is in its candidate under the offset exactly where it lags by it. -/
theorem under_iff_lags : (∀ r ∈ env.credited st t, r.Of k n → r.removed ≠ [] → r.Under d) ↔
    env.Lags k n d st t := by
  cases t with
  | film i => simp [credited, Lags]
  | openSeasons k' => simp [credited, Lags]
  | pack i => simp [credited, Lags]
  | openSeries k' => simp [credited, Lags]
  | openEpisodes j => simp [credited, Lags]
  | openPacks j => simp [credited, Lags]
  | unpack i => simp [credited, Lags]
  | episode i =>
    by_cases hadded : ∃ need relative, env.AddedOffer st i need relative
    · obtain ⟨need, relative, h⟩ := hadded
      exact env.under_iff_of_added h
    · have hnone : ∀ need relative, ¬env.AddedOffer st i need relative := by
        intro need relative h
        exact hadded ⟨need, relative, h⟩
      refine iff_of_true ?_ ?_
      · simp only [credited, (env.turn_of_not_added hnone).1]
        cases st.need with
        | none => simp
        | some need =>
          intro r hr _ hne
          obtain rfl := List.mem_singleton.mp hr
          simp at hne
      · intro _ _ _ need relative _ h
        exact absurd h (hnone need relative)

/-- The turns of `download_episodes`. -/
def episodeTurns (keys : List IdValue) (slots : IdValue → ℕ) (list : List ℕ) : List Turn :=
  seasonTurns keys slots list .openEpisodes .episode

/-- **When the candidates of a season are credited under one offset**: every candidate that is
added and credited has its first episode at the same distance from the first episode that is
outstanding at its turn. -/
theorem oneOffset_iff (st : Batch) (keys : List IdValue) (slots : IdValue → ℕ) (list : List ℕ)
    (k : IdValue) (n : ℤ) :
    OneOffset k n (Run.trace env.turn env.credited st (episodeTurns keys slots list)) ↔
      ∃ d, Run.Along env.turn (env.Lags k n d) st (episodeTurns keys slots list) := by
  rw [oneOffset_iff_contained]
  refine exists_congr fun d => ?_
  rw [Run.forall_trace_iff]
  exact Run.along_iff fun st t => env.under_iff_lags

/-- A downloader that takes whatever it is handed. -/
def eager : DownloadEnv where
  bySeeders := false
  downloadUrl _ := some none
  torrentEpisodes _ := some []
  add _ _ _ := some (of "1")
  tidEpisodes _ := some []
  setFilesFails _ := false
  startFails _ := false
  removeFails _ := false

/-- A season of four episodes, of which releases number the first two from the first season on. -/
def continuedSeason : Needs := Dict.empty.set (.text (of "tmdb:5")) [⟨2, [1, 2, 3, 4], 4, 0⟩]

/-- Two such releases. -/
def continuedReleases : List Candidate :=
  [of "1", of "2"].map fun page =>
    { media :=
        { type := some .tv, tmdbId := .int 5, beginSeason := some 2
          beginEpisode := some 25, endEpisode := some 26 }
      pageUrl := page }

/-- What the two are credited with. -/
def continuedCredits : List Credited :=
  Run.trace eager.turn eager.credited (Batch.start continuedSeason continuedReleases)
    (episodeTurns continuedSeason.keys (fun _ => 1) [0, 1])

/-- The second release of the first two episodes is credited with the last two. -/
theorem second_release_credited : ¬OneOffset (.text (of "tmdb:5")) 2 continuedCredits := by
  intro h
  have hcredits : ∃ r ∈ continuedCredits, ∃ r' ∈ continuedCredits,
      r.Of (.text (of "tmdb:5")) 2 ∧ r'.Of (.text (of "tmdb:5")) 2 ∧
        r.released = r'.released ∧ r.removed = [1, 2] ∧ r'.removed = [3, 4] := by decide +kernel
  obtain ⟨r, hr, r', hr', hof, hof', hreleased, hfirst, hlast⟩ := hcredits
  have hsame := h.same r hr r' hr' hof hof' (by simp [hfirst]) (by simp [hlast])
    (by simp [hreleased]) 1
  simp [hfirst, hlast] at hsame

end DownloadEnv

end WolfNas
