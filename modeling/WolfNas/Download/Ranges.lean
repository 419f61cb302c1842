import WolfNas.Download.Conservation
import WolfNas.Subscribe.DownloadGuard

/-!
# Selected episodes as a range

The episodes that are selected for a download are a set.  The item and the download history keep
only the first and the last of them, and whoever reads these takes all episodes in between.

## Main definitions

* `Consecutive` — a set of episodes without a gap.
* `Attempt.written` — the item with the first and the last of the episodes it was selected for.
* `Attempt.Exact` — the item and the history stand for the selected episodes, and no others.

## Main results

* `mem_withEpisodes` — what the first and the last episode stand for.
* `DownloadEnv.items_turn` — the item after a turn that has selected episodes.
* `DownloadEnv.ranges_exact_iff` — when all of a run's items stand for their episodes.
-/

namespace WolfNas

open Text DownloadGuard

/-- No number between two of the set is missing. -/
def Consecutive (l : List ℕ) : Prop := ∀ a ∈ l, ∀ b ∈ l, ∀ e ∈ List.range' a (b + 1 - a), e ∈ l

instance (l : List ℕ) : Decidable (Consecutive l) := by
  unfold Consecutive
  infer_instance

variable {c : Candidate} {l : List ℕ} {e : ℕ}

/-! ## The first and the last episode -/

theorem mem_range'_between {a b : ℕ} : e ∈ List.range' a (b + 1 - a) ↔ a ≤ e ∧ e ≤ b := by
  rw [List.mem_range'_1]
  omega

theorem type_withEpisodes (c : Candidate) (l : List ℕ) :
    (c.withEpisodes l).media.type = c.media.type := by
  cases l <;> rfl

theorem withEpisodes_withEpisodes (c : Candidate) (l : List ℕ) :
    (c.withEpisodes l).withEpisodes l = c.withEpisodes l := by
  cases l <;> rfl

/-- **The first and the last episode** stand for all between them. -/
theorem mem_withEpisodes (hsorted : l.Pairwise (· ≤ ·)) (hne : l ≠ []) :
    e ∈ (c.withEpisodes l).media.getEpisodeList ↔ ∃ a ∈ l, ∃ b ∈ l, a ≤ e ∧ e ≤ b := by
  cases l with
  | nil => exact absurd rfl hne
  | cons a l =>
    have hfirst : ∀ b ∈ a :: l, a ≤ b := by
      intro b hb
      rcases List.mem_cons.mp hb with rfl | hb
      · exact le_rfl
      · exact List.rel_of_pairwise_cons hsorted hb
    cases l using List.reverseRecOn with
    | nil =>
      simp only [Candidate.withEpisodes, MediaInfo.getEpisodeList, List.getLast?_nil,
        List.mem_singleton, exists_eq_left]
      omega
    | append_singleton l z =>
      have hlast : ∀ b ∈ a :: (l ++ [z]), b ≤ z := by
        intro b hb
        rw [← List.cons_append, List.pairwise_append] at hsorted
        rw [← List.cons_append] at hb
        rcases List.mem_append.mp hb with hb | hb
        · exact hsorted.2.2 b hb z (List.mem_singleton_self z)
        · rw [List.mem_singleton.mp hb]
      have hz : z ∈ a :: (l ++ [z]) :=
        List.mem_cons_of_mem a (List.mem_append_right l (List.mem_singleton_self z))
      simp only [Candidate.withEpisodes, MediaInfo.getEpisodeList, List.getLast?_append,
        List.getLast?_singleton, Option.some_or, mem_range'_between]
      constructor
      · rintro ⟨hlow, hhigh⟩
        exact ⟨a, List.mem_cons_self, z, hz, hlow, hhigh⟩
      · rintro ⟨b, hb, b', hb', hlow, hhigh⟩
        exact ⟨(hfirst b hb).trans hlow, hhigh.trans (hlast b' hb')⟩

/-- They stand for the set exactly where it has no gap. -/
theorem withEpisodes_exact_iff (hsorted : l.Pairwise (· ≤ ·)) (hne : l ≠ []) :
    (∀ e, e ∈ (c.withEpisodes l).media.getEpisodeList ↔ e ∈ l) ↔ Consecutive l := by
  simp only [mem_withEpisodes hsorted hne, Consecutive, mem_range'_between]
  constructor
  · intro h a ha b hb e he
    exact (h e).mp ⟨a, ha, b, hb, he⟩
  · intro h e
    constructor
    · rintro ⟨a, ha, b, hb, he⟩
      exact h a ha b hb e he
    · intro he
      exact ⟨e, he, e, he, le_rfl, le_rfl⟩

/-! ## What is selected is sorted -/

theorem sorted_relative {released need : List ℕ} {offset : ℕ} {season : ℤ}
    (h : relativeReleaseEpisodes released need offset season = some l) : l.Pairwise (· ≤ ·) := by
  simp only [relativeReleaseEpisodes] at h
  split_ifs at h
  · obtain rfl := Option.some.inj h
    exact List.pairwise_insertionSort _ _
  · obtain rfl := Option.some.inj h
    exact List.pairwise_insertionSort _ _

theorem sorted_match {released need : List ℕ} {offset : ℕ} {season : ℤ} :
    (matchReleaseEpisodes released need offset season).2.Pairwise (· ≤ ·) := by
  simp only [matchReleaseEpisodes]
  split_ifs <;> exact List.pairwise_insertionSort _ _

namespace Attempt

variable (a : Attempt)

/-- The item as it is written, with the first and the last of its episodes. -/
def written : Candidate := a.item.withEpisodes a.brings

/-- `SE` of the download history, written for the item. -/
def historySe : Text := a.written.media.getSeasonEpisodeString

/-- The download stays, and episodes were selected for it. -/
def Selected : Prop := a.kept = true ∧ a.brings ≠ []

instance : Decidable a.Selected := inferInstanceAs (Decidable (_ ∧ _))

/-- **The item and the history** stand for the selected episodes of the season, and no others. -/
structure Exact (item : Candidate) : Prop where
  item : ∀ e, e ∈ item.media.getEpisodeList ↔ e ∈ a.brings
  history : ∀ p : ℕ × ℕ, Denotes a.historySe p ↔
    p.1 ∈ a.item.media.getSeasonList ∧ p.2 ∈ a.brings

end Attempt

namespace DownloadEnv

variable {env : DownloadEnv} {st st' : Batch} {t : Turn} {p : Plan} {id : Text} {a : Attempt}

/-- The item after a download that takes episodes from a pack. -/
theorem items_credit {k : IdValue} {j : ℕ} {need : List ℕ} (habout : p.about = some (k, j, need))
    (htaking : env.taking st id p = true) : ((env.credit st id p).items p.place =
      (st.items p.place).withEpisodes (env.brought st id p)) ∨
        ∃ i relative, p = .episode k j i need relative ∧ (env.credit st id p).items = st.items := by
  cases p with
  | film i name => simp [Plan.about] at habout
  | pack k i => simp [Plan.about] at habout
  | episode k j i need relative =>
    obtain ⟨rfl, rfl, rfl⟩ := by simpa [Plan.about] using habout
    exact .inr ⟨i, relative, rfl, rfl⟩
  | unpack k j i need relative =>
    left
    simp only [credit, Batch.takeEpisodes, Batch.setItem, Plan.place, Function.update_self, brought]
  | magnet k j i need =>
    left
    simp only [taking] at htaking
    split at htaking
    · rename_i found hfiles
      have hfound : found.1 ≠ [] := of_decide_eq_true htaking
      simp only [credit, hfiles, if_neg hfound, Batch.takeEpisodes, Batch.setItem, Plan.place,
        Function.update_self, brought]
    · simp at htaking

/-- What is known of the item of a download, and of the episodes selected for it. -/
structure Chosen (env : DownloadEnv) (st' : Batch) (p : Plan) : Prop where
  series : (st'.items p.place).media.type ≠ some .movie
  sorted : ∀ id, (env.brought st' id p).Pairwise (· ≤ ·)
  written : ∀ k j i need relative, p = .episode k j i need relative →
    (st'.items p.place).withEpisodes relative = st'.items p.place

theorem chosen_of_episode {i : ℕ} (h : env.considerEpisode st i = (st', some p)) :
    Chosen env st' p := by
  obtain ⟨need, -, relative, hoffer, rfl, rfl⟩ := env.considerEpisode_iff.mp h
  obtain ⟨released, -, hrelative⟩ := hoffer.episodes
  refine ⟨?_, ?_, ?_⟩
  · simp only [Plan.place, Batch.setItem, Function.update_self]
    rw [type_withEpisodes, type_linked]
    exact hoffer.series
  · intro id
    exact sorted_relative hrelative
  · intro k j i' need' relative' hplan
    cases hplan
    simp only [Plan.place, Batch.setItem, Function.update_self]
    exact withEpisodes_withEpisodes _ _

theorem chosen_of_unpack {i : ℕ} (h : env.considerUnpack st i = (st', some p)) :
    Chosen env st' p := by
  obtain ⟨need, -, -, hoffer, rfl, rfl⟩ := env.considerUnpack_iff.mp h
  refine ⟨?_, ?_, ?_⟩
  · rw [place_unpackPlan, type_fetchUrl]
    exact hoffer.series
  · intro id
    simp only [unpackPlan]
    split
    · simp only [brought]
      split
      · rename_i found hfound
        obtain ⟨released, -, hmatch⟩ := Option.map_eq_some_iff.mp hfound
        split_ifs at hmatch
        obtain rfl := Option.some.inj hmatch
        exact sorted_match
      · exact List.Pairwise.nil
    · exact sorted_match
  · intro k j i' need' relative' hplan
    simp only [unpackPlan] at hplan
    split at hplan <;> simp at hplan

/-- **The item after a turn** that has selected episodes. -/
theorem items_turn (hchosen : Chosen env st' p) {need : List ℕ} (hoffer : Offered env st st' p need)
    (hid : (env.attempt st' p).id = some id) (hselected : (env.attempt st' p).Selected) :
    (env.settle (env.download st' p).1 id p).items p.place = (env.attempt st' p).written := by
  obtain ⟨hkept, hne⟩ := hselected
  obtain ⟨hkeeps, hbrings⟩ := attempt_of_id hid
  rw [hkeeps] at hkept
  rw [hbrings] at hne
  have htaking : env.taking st' id p = true := by
    by_contra hnot
    rw [Bool.not_eq_true] at hnot
    exact hne ((credit_of_not_taking hoffer.about hnot).2 hkept)
  obtain ⟨downloaded, hdownload⟩ := download_of_id hid
  have htaking' : env.taking (env.download st' p).1 id p = true := by
    rw [hdownload, ← htaking]
    cases p <;> rfl
  have hbrought : env.brought (env.download st' p).1 id p = env.brought st' id p := by
    rw [hdownload]
    cases p <;> rfl
  obtain ⟨removed, hsettle⟩ := settle_eq (env.download st' p).1 id p
  have hitem : (env.attempt st' p).item = st'.items p.place := rfl
  rw [hsettle, Attempt.written, hbrings, hitem]
  rcases items_credit hoffer.about htaking' with hitems | ⟨i, relative, hplan, hitems⟩
  · rw [hbrought] at hitems
    rw [hitems, hdownload]
  · have hrelative : env.brought st' id p = relative := by
      rw [hplan]
      rfl
    rw [hitems, hdownload, hrelative, hchosen.written _ _ _ _ _ hplan]

theorem chosen (ht : t.ofEpisodes = true) (h : env.consider st t = (st', some p)) :
    Chosen env st' p := by
  cases t with
  | episode i => exact chosen_of_episode h
  | unpack i => exact chosen_of_unpack h
  | film i => simp [Turn.ofEpisodes] at ht
  | pack i => simp [Turn.ofEpisodes] at ht
  | openSeasons k => simp [Turn.ofEpisodes] at ht
  | openSeries k => simp [consider] at h
  | openEpisodes j => simp [consider] at h
  | openPacks j => simp [consider] at h

/-- Only the loops over the episodes select any. -/
theorem ofEpisodes_of_brings (h : env.consider st t = (st', some p))
    (hne : (env.attempt st' p).brings ≠ []) : t.ofEpisodes = true := by
  have hbrings : ∀ i, p.about = none → p.place = i → (env.attempt st' p).brings = [] := by
    intro i habout _
    cases p with
    | film i name => cases hid : env.add st'.log.length (st'.items i) false <;>
        simp [attempt, Plan.place, Plan.paused, hid, brought]
    | pack k i => cases hid : env.add st'.log.length (st'.items i) false <;>
        simp [attempt, Plan.place, Plan.paused, hid, brought]
    | _ => simp [Plan.about] at habout
  cases t with
  | film i =>
    obtain ⟨name, rfl⟩ := env.considerFilm_plan h
    exact absurd (hbrings _ rfl rfl) hne
  | pack i =>
    obtain ⟨-, -, rfl⟩ := env.considerPack_iff.mp h
    exact absurd (hbrings _ rfl rfl) hne
  | openSeasons k => simp [consider] at h
  | _ => rfl

/-- **An item stands for the episodes it was selected for** exactly where these have no gap. -/
theorem exact_iff (ha : a ∈ env.attempts st t) (h : a.Selected) :
    a.Exact ((env.turn st t).items a.plan.place) ↔ Consecutive a.brings := by
  obtain ⟨hraised, st', p, hconsider, rfl⟩ := env.mem_attempts.mp ha
  have ht := ofEpisodes_of_brings hconsider h.2
  have hchosen := chosen ht hconsider
  obtain ⟨need, hoffer⟩ := offered ht hconsider
  obtain ⟨id, hid⟩ : ∃ id, (env.attempt st' p).id = some id := by
    refine Option.ne_none_iff_exists'.mp ?_
    intro hnone
    exact Bool.false_ne_true ((not_kept_of_id hnone).symm.trans h.1)
  have hitem : (env.turn st t).items (env.attempt st' p).plan.place =
      (env.attempt st' p).written := by
    rw [turn_of_plan _ hraised hconsider, hid]
    exact items_turn hchosen hoffer hid h
  have hsorted : (env.attempt st' p).brings.Pairwise (· ≤ ·) := by
    rw [(attempt_of_id hid).2]
    exact hchosen.sorted id
  have hexact := @withEpisodes_exact_iff (env.attempt st' p).item _ hsorted h.2
  obtain ⟨s, hseasons, -⟩ := hoffer.season
  have hseasons' : (env.attempt st' p).item.media.getSeasonList = [s] := hseasons
  rw [hitem, ← hexact]
  constructor
  · intro h
    exact h.item
  · intro hlist
    refine ⟨hlist, ?_⟩
    intro q
    obtain ⟨e, he⟩ := List.exists_mem_of_ne_nil _ h.2
    have hne : (env.attempt st' p).written.media.getEpisodeList ≠ [] :=
      List.ne_nil_of_mem ((hlist e).mpr he)
    have hmovie : (env.attempt st' p).written.media.type ≠ some .movie := by
      rw [Attempt.written, type_withEpisodes]
      exact hchosen.series
    have hseason : (env.attempt st' p).written.media.getSeasonList = [s] := by
      rw [Attempt.written, seasons_withEpisodes]
      exact hseasons'
    obtain ⟨w, b, e', -, -, hrange, htext⟩ :=
      MediaInfo.getSeasonEpisodeString_eq hmovie hseason hne
    have hmem := hlist q.2
    rw [← Attempt.written, hrange, mem_range'_between] at hmem
    rw [Attempt.historySe, htext, denotes_recordText, hseasons', List.mem_singleton, hmem]

/-- **When the items and the history stand for the selected episodes** in a run of any turns: the
episodes selected for each download have no gap. -/
theorem ranges_exact_iff (env : DownloadEnv) (st : Batch) (turns : List Turn) :
    Run.Along env.turn (fun st t => ∀ a ∈ env.attempts st t, a.Selected →
        a.Exact ((env.turn st t).items a.plan.place)) st turns ↔
      Run.Along env.turn (fun st t => ∀ a ∈ env.attempts st t, a.Selected →
        Consecutive a.brings) st turns := by
  refine Run.along_iff fun st t => forall_congr' fun a => forall_congr' fun ha =>
    forall_congr' fun h => ?_
  exact exact_iff ha h

/-- A season of which the second episode is there already. -/
def gapSeason : Needs := Dict.empty.set (.text (of "tmdb:5")) [⟨1, [1, 3], 4, 0⟩]

/-- The episodes 1 and 3 are selected from a pack, and the item and the history say 1 to 3. -/
theorem gap_filled : ¬Run.Along selecting.turn (fun st t => ∀ a ∈ selecting.attempts st t,
      a.Selected → a.Exact ((selecting.turn st t).items a.plan.place))
      (Batch.start gapSeason [partialPack]) (selecting.batchTurns gapSeason [partialPack]) ∧
    (selecting.batchDownload gapSeason [partialPack]).log.map
      (fun a => (a.kept, a.brings, a.historySe)) = [(true, [1, 3], of "S01 E01-E03")] ∧
    ((selecting.batchDownload gapSeason [partialPack]).items 0).media.getEpisodeList =
      [1, 2, 3] := by
  refine ⟨?_, by decide +kernel, by decide +kernel⟩
  intro h
  have hgaps : ¬Run.Along selecting.turn (fun st t => ∀ a ∈ selecting.attempts st t,
      a.Selected → Consecutive a.brings) (Batch.start gapSeason [partialPack])
      (selecting.batchTurns gapSeason [partialPack]) := by decide +kernel
  refine hgaps (h.imp fun st t hexact a ha hselected => ?_)
  exact (exact_iff ha hselected).mp (hexact a ha hselected)

end DownloadEnv

end WolfNas
