import WolfNas.Download.Offers

/-!
# The name of a pack and its files

`download_from_season_pack` compares the needed episodes with the ones in a candidate's name before
it looks at its files, and with the files once it has them.  Only the first comparison is told the
season, so only there an offset is inferred.

## Main definitions

* `Continues` — the released episodes go on after the needed ones, as those shifted by a distance.
* `DownloadEnv.prechosen` — what the name of a candidate has of the needed episodes.
* `DownloadEnv.fileEpisodes` — the episodes that its files have.

## Main results

* `matchReleaseEpisodes_congr` — the comparison is one of sets.
* `DownloadEnv.brought_unpackPlan` — both branches compare the files alike.
* `DownloadEnv.agree_iff` — when the files are compared as the name was.
-/

namespace WolfNas

open Text

variable {released files need : List ℕ} {offset : ℕ} {season : ℤ}

/-! ## The comparison -/

/-- All released episodes come after all needed ones, and are needed once their numbers are
shifted to the first needed one. -/
def Continues (released need : List ℕ) : Prop :=
  let d := released.min?.getD 0 - need.min?.getD 0
  (∀ e ∈ released, ∀ n ∈ need, n < e) ∧ (∃ e ∈ released, d < e) ∧ ∀ e ∈ released, e - d ∈ need

instance (released need : List ℕ) : Decidable (Continues released need) := by
  unfold Continues
  infer_instance

theorem min?_congr (h : ∀ e, e ∈ files ↔ e ∈ released) : files.min? = released.min? := by
  refine Option.ext fun first => ?_
  simp only [List.min?_eq_some_iff, h]

/-- The order of the episodes, and how often they are listed, does not matter. -/
theorem matchReleaseEpisodes_congr (h : ∀ e, e ∈ files ↔ e ∈ released) :
    matchReleaseEpisodes files need offset season =
      matchReleaseEpisodes released need offset season := by
  have hoffset :
      inferOffset files need offset season = inferOffset released need offset season := by
    simp only [inferOffset, min?_congr h, h]
  have hfilter : ∀ p : ℕ → Bool, ∀ e, e ∈ files.filter p ↔ e ∈ released.filter p := by
    intro p e
    simp only [List.mem_filter, h]
  have hnil : ∀ p : ℕ → Bool, files.filter p = [] ↔ released.filter p = [] := by
    intro p
    simp only [List.filter_eq_nil_iff, h]
  simp only [matchReleaseEpisodes, hoffset, ne_eq, hnil]
  split_ifs
  · refine Prod.ext (sortedSet_congr (hfilter _)) (sortedSet_congr ?_)
    intro e
    simp only [List.mem_map, List.mem_filter, h]
  · exact Prod.ext (sortedSet_congr (hfilter _)) (sortedSet_congr (hfilter _))

/-- Without the season no offset is inferred. -/
theorem inferOffset_one : inferOffset released need offset 1 = offset := by
  rw [inferOffset]
  split
  · rw [if_pos (.inr (.inl le_rfl))]
  · rfl

/-- An offset is inferred for a season behind the first one, where none is configured. -/
theorem inferOffset_eq_self (h : 0 < offset ∨ season ≤ 1) :
    inferOffset released need offset season = offset := by
  rw [inferOffset]
  split
  · rw [if_pos (h.imp_right .inl)]
  · rfl

/-- The distance that the comparison goes by. -/
theorem inferOffset_of_continues (hseason : 1 < season) (h : Continues released need) :
    inferOffset released need 0 season = released.min?.getD 0 - need.min?.getD 0 := by
  obtain ⟨hbehind, ⟨e, he, -⟩, hneeded⟩ := h
  have hne : released ≠ [] := List.ne_nil_of_mem he
  have hne' : need ≠ [] := List.ne_nil_of_mem (hneeded e he)
  obtain ⟨first, hfirst⟩ := Option.ne_none_iff_exists'.mp (mt List.min?_eq_none_iff.mp hne)
  obtain ⟨least, hleast⟩ := Option.ne_none_iff_exists'.mp (mt List.min?_eq_none_iff.mp hne')
  obtain ⟨greatest, hgreatest⟩ := Option.ne_none_iff_exists'.mp (mt List.max?_eq_none_iff.mp hne')
  have hfirst' := (List.min?_eq_some_iff.mp hfirst).1
  have hleast' := (List.min?_eq_some_iff.mp hleast).1
  have hgreatest' := (List.max?_eq_some_iff.mp hgreatest).1
  simp only [hfirst, hleast, Option.getD_some] at hneeded
  simp only [inferOffset, hfirst, hleast, hgreatest, Option.getD_some]
  have hapart : ¬(0 < 0 ∨ season ≤ 1 ∨ (∃ e ∈ released, e ∈ need) ∨ first ≤ greatest) := by
    rintro (h | h | ⟨e, he, hneed⟩ | h)
    · omega
    · omega
    · exact absurd (hbehind e he e hneed) (lt_irrefl e)
    · exact absurd (hbehind first hfirst' greatest hgreatest') (by omega)
  have hpos : 0 < first - least := by
    have hlt := hbehind first hfirst' least hleast'
    omega
  rw [if_neg hapart, if_pos ⟨hpos, hneeded⟩]

theorem of_inferOffset_ne_zero (h : inferOffset released need 0 season ≠ 0) :
    inferOffset released need 0 season = released.min?.getD 0 - need.min?.getD 0 ∧
      (∀ e ∈ released, ∀ n ∈ need, n < e) ∧
        ∀ e ∈ released, e - (released.min?.getD 0 - need.min?.getD 0) ∈ need := by
  rw [inferOffset] at h ⊢
  split at h
  · rename_i first least greatest hfirst hleast hgreatest
    split_ifs at h with hskip hfits
    · exact absurd rfl h
    · simp only [hfirst, hleast, if_neg hskip, if_pos hfits, Option.getD_some, true_and]
      refine ⟨?_, hfits.2⟩
      intro e he n hn
      have hlow := (List.min?_eq_some_iff.mp hfirst).2 e he
      have hhigh := (List.max?_eq_some_iff.mp hgreatest).2 n hn
      have hapart : ¬first ≤ greatest := fun hle => hskip (.inr (.inr (.inr hle)))
      omega
    · exact absurd rfl h
  · exact absurd rfl h

/-- What is needed once its number is shifted. -/
theorem mem_shifted (hneeded : ∀ e ∈ released, e - (released.min?.getD 0 - need.min?.getD 0) ∈ need)
    {e : ℕ} (he : e ∈ released) : e ∈ need.map (· + (released.min?.getD 0 - need.min?.getD 0)) := by
  refine List.mem_map.mpr ⟨_, hneeded e he, ?_⟩
  cases hfirst : released.min? with
  | none => simp
  | some first =>
    have hlow := (List.min?_eq_some_iff.mp hfirst).2 e he
    simp only [Option.getD_some]
    omega

/-- **The two comparisons agree** unless the released episodes go on after the needed ones, in a
season behind the first one for which no offset is configured. -/
theorem matchReleaseEpisodes_one_eq_iff :
    (matchReleaseEpisodes released need offset 1).2 =
        (matchReleaseEpisodes released need offset season).2 ↔
      ¬(offset = 0 ∧ 1 < season ∧ Continues released need) := by
  by_cases hskip : 0 < offset ∨ season ≤ 1
  · have heq : inferOffset released need offset 1 = inferOffset released need offset season := by
      rw [inferOffset_one, inferOffset_eq_self hskip]
    refine iff_of_true (by simp only [matchReleaseEpisodes, heq]) ?_
    rintro ⟨hoffset, hseason, -⟩
    omega
  obtain ⟨hzero, hseason⟩ := not_or.mp hskip
  obtain rfl : offset = 0 := by omega
  rw [not_le] at hseason
  by_cases hinfer : inferOffset released need 0 season = 0
  · refine iff_of_true (by simp only [matchReleaseEpisodes, hinfer, inferOffset_one]) ?_
    rintro ⟨-, -, hcontinues⟩
    obtain ⟨hbehind, ⟨e, he, hlt⟩, hneeded⟩ := hcontinues
    have hd := inferOffset_of_continues hseason ⟨hbehind, ⟨e, he, hlt⟩, hneeded⟩
    rw [hinfer] at hd
    have hself := hneeded e he
    rw [← hd] at hself
    exact absurd (hbehind e he e hself) (lt_irrefl e)
  obtain ⟨hd, hbehind, hneeded⟩ := of_inferOffset_ne_zero hinfer
  have hnone : released.filter (· ∈ need) = [] := by
    rw [List.filter_eq_nil_iff]
    intro e he hneed
    exact absurd (hbehind e he e (of_decide_eq_true hneed)) (lt_irrefl e)
  have hone : (matchReleaseEpisodes released need 0 1).2 = [] := by
    simp only [matchReleaseEpisodes, inferOffset_one, hnone, lt_irrefl, false_and, if_false]
    rfl
  set d := inferOffset released need 0 season
  obtain ⟨n, hn⟩ : ∃ n, n ∈ released := by
    by_contra hnil
    refine hinfer ?_
    have hreleased : released = [] := List.eq_nil_iff_forall_not_mem.mpr fun n hn => hnil ⟨n, hn⟩
    simp only [d, hreleased, inferOffset, List.min?_nil]
  have hshift : ∀ e ∈ released, e ∈ need.map (· + d) := by
    intro e he
    rw [hd]
    exact mem_shifted hneeded he
  have hall : released.filter (· ∈ need.map (· + d)) = released := by
    rw [List.filter_eq_self]
    intro e he
    exact decide_eq_true (hshift e he)
  have hchosen : (matchReleaseEpisodes released need 0 season).2 =
      sortedSet ((released.filter (d < ·)).map (· - d)) := by
    have hne : released ≠ [] := List.ne_nil_of_mem hn
    simp only [matchReleaseEpisodes]
    rw [hall, if_pos ⟨by omega, hne⟩]
  have hnil : (matchReleaseEpisodes released need 0 season).2 = [] ↔ ¬∃ e ∈ released, d < e := by
    rw [hchosen, List.eq_nil_iff_forall_not_mem]
    simp only [mem_sortedSet, List.mem_map, List.mem_filter, decide_eq_true_eq]
    constructor
    · rintro h ⟨e, he, hlt⟩
      exact h (e - d) ⟨e, ⟨he, hlt⟩, rfl⟩
    · rintro h _ ⟨e, ⟨he, hlt⟩, -⟩
      exact h ⟨e, he, hlt⟩
  rw [hone, eq_comm, hnil, not_iff_not]
  simp only [Continues, ← hd, true_and]
  constructor
  · intro hlater
    exact ⟨hseason, hbehind, hlater, hd ▸ hneeded⟩
  · intro h
    exact h.2.2.1

/-- Episodes that go on after the needed ones are found under the inferred offset. -/
theorem fst_ne_nil_of_continues (hseason : 1 < season) (h : Continues released need) :
    (matchReleaseEpisodes released need 0 season).1 ≠ [] := by
  have hd := inferOffset_of_continues hseason h
  obtain ⟨hbehind, ⟨e, he, hlt⟩, hneeded⟩ := h
  have hshift := mem_shifted hneeded he
  have hpos : 0 < released.min?.getD 0 - need.min?.getD 0 := by
    by_contra hzero
    have hself := hneeded e he
    rw [Nat.eq_zero_of_not_pos hzero, Nat.sub_zero] at hself
    exact absurd (hbehind e he e hself) (lt_irrefl e)
  have hmem : e ∈ released.filter (· ∈ need.map (· + (released.min?.getD 0 - need.min?.getD 0))) :=
    List.mem_filter.mpr ⟨he, decide_eq_true hshift⟩
  simp only [matchReleaseEpisodes, hd]
  rw [if_pos ⟨hpos, List.ne_nil_of_mem hmem⟩]
  exact List.ne_nil_of_mem (mem_sortedSet.mpr hmem)

/-! ## The name and the files -/

namespace DownloadEnv

/-- What the name of a candidate has of the needed episodes, in its numbers and in the season's. -/
def prechosen (st : Batch) (need : List ℕ) (i : ℕ) : List ℕ × List ℕ :=
  matchReleaseEpisodes (st.items i).media.getEpisodeList need
    (st.slot st.key st.tv).episodeOffset (st.slot st.key st.tv).number

variable (env : DownloadEnv) {st : Batch} {i : ℕ} {id : Text}

/-- The episodes that its files have; those of a magnet link are read from its download. -/
def fileEpisodes (st : Batch) (i : ℕ) (id : Text) : Option (List ℕ) :=
  let url := ((env.fetchUrl st i).items i).media.enclosure
  if (orEmpty url).startsWith (of "magnet:") then env.tidEpisodes id else env.episodesOf url

/-- **Both branches compare the files alike**, without the season. -/
theorem brought_unpackPlan (h : env.fileEpisodes st i id = some files) :
    env.brought (env.fetchUrl st i) id (env.unpackPlan st need i) =
      (matchReleaseEpisodes files need (st.slot st.key st.tv).episodeOffset 1).2 := by
  have hslot : (env.fetchUrl st i).slot st.key st.tv = st.slot st.key st.tv := by
    rw [Batch.slot, needs_fetchUrl]
    rfl
  simp only [fileEpisodes] at h
  simp only [unpackPlan]
  split_ifs at h ⊢ with hmagnet
  · simp only [brought, magnetFiles, h, Option.map_some, hslot]
    by_cases hfiles : files = []
    · subst hfiles
      simp [matchReleaseEpisodes, sortedSet]
    · rw [if_neg hfiles]
  · rw [h]
    rfl

/-- **When the files are compared as the name was**: not where the episodes go on after the needed
ones, in a season behind the first one for which no offset is configured. -/
theorem agree_iff (hfiles : env.fileEpisodes st i id = some files)
    (hsame : ∀ e, e ∈ files ↔ e ∈ (st.items i).media.getEpisodeList) :
    ((prechosen st need i).1 ≠ [] → env.brought (env.fetchUrl st i) id (env.unpackPlan st need i) =
        (prechosen st need i).2) ↔
      ¬((st.slot st.key st.tv).episodeOffset = 0 ∧ 1 < (st.slot st.key st.tv).number ∧
        Continues (st.items i).media.getEpisodeList need) := by
  rw [env.brought_unpackPlan hfiles, matchReleaseEpisodes_congr hsame, prechosen,
    matchReleaseEpisodes_one_eq_iff]
  constructor
  · rintro h ⟨hzero, hseason, hcontinues⟩
    rw [hzero] at h
    exact h (fst_ne_nil_of_continues hseason hcontinues) ⟨rfl, hseason, hcontinues⟩
  · intro h _
    exact h

/-- A downloader whose torrents have the episodes 25 and 26. -/
def numberedOn : DownloadEnv where
  bySeeders := false
  downloadUrl _ := some none
  torrentEpisodes _ := some [25, 26]
  add _ _ _ := some (of "1")
  tidEpisodes _ := some [25, 26]
  setFilesFails _ := false
  startFails _ := false
  removeFails _ := false

/-- A release of these episodes, at a link, and the first two episodes of a season are needed. -/
def carriedOn (season : ℕ) (offset : ℕ) (url : Text) : Batch :=
  { Batch.start (Dict.empty.set (.text (of "tmdb:5")) [⟨season, [1, 2], 12, offset⟩])
      [{ media :=
          { type := some .tv, tmdbId := .int 5, beginSeason := some season
            beginEpisode := some 25, endEpisode := some 26, enclosure := some url } }] with
    key := .text (of "tmdb:5") }

theorem episodes_carriedOn (season offset : ℕ) (url : Text) :
    ((carriedOn season offset url).items 0).media.getEpisodeList = [25, 26] := rfl

/-- With the offset configured both comparisons find the two episodes. -/
theorem configured_agree : numberedOn.brought
    (numberedOn.fetchUrl (carriedOn 2 24 (of "http://pt.example/1")) 0) (of "1")
      (numberedOn.unpackPlan (carriedOn 2 24 (of "http://pt.example/1")) [1, 2] 0) =
        (prechosen (carriedOn 2 24 (of "http://pt.example/1")) [1, 2] 0).2 :=
  (@agree_iff [25, 26] [1, 2] numberedOn (carriedOn 2 24 (of "http://pt.example/1")) 0 (of "1")
    (by decide +kernel) (by rw [episodes_carriedOn]; simp)).mpr (by decide +kernel)
      (by decide +kernel)

/-- The name passes for both episodes, and the files for none, of a torrent and of a magnet link. -/
theorem carried_on_not_selected :
    (∀ url ∈ [of "http://pt.example/1", of "magnet:?xt=1"],
      prechosen (carriedOn 2 0 url) [1, 2] 0 = ([25, 26], [1, 2]) ∧
        numberedOn.fileEpisodes (carriedOn 2 0 url) 0 (of "1") = some [25, 26] ∧
          ((carriedOn 2 0 url).items 0).media.getEpisodeList = [25, 26]) ∧
      ∀ url ∈ [of "http://pt.example/1", of "magnet:?xt=1"],
        numberedOn.brought (numberedOn.fetchUrl (carriedOn 2 0 url) 0) (of "1")
          (numberedOn.unpackPlan (carriedOn 2 0 url) [1, 2] 0) = [] := by
  decide +kernel

end DownloadEnv

end WolfNas
