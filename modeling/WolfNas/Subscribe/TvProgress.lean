import WolfNas.Lib.Run
import WolfNas.Subscribe.TvTable

/-!
# The progress of a TV subscription

Four columns and a record tell where a TV subscription stands, and they tell it twice: the
number of lacking episodes is the length of the record, the first wanted episode its least one,
and no episode lies beyond the total.  Each operation of the repository writes its own part, and
this module says when it leaves the parts in agreement.

## Main definitions

* `Progress.Listed`, `Progress.Consistent` — the columns agree with the record.
* `Progress.Kept` — the record is not emptied.
* `TvCall.Fits` — the condition on a call and the table before it.

## Main results

* `Progress.consistent_updateTotal` and its like — one operation.
* `progress_consistent_iff` — runs of calls on the table.
-/

namespace WolfNas

namespace Progress

variable {p : Progress}

/-- The columns agree with the record `episodes`. -/
structure Listed (p : Progress) (episodes : List ℤ) : Prop where
  lack : p.lack = episodes.length
  within : ∀ e ∈ episodes, 1 ≤ e ∧ e ≤ p.total
  first : episodes ≠ [] → IsLeast {e | e ∈ episodes} p.currentEp

/-- The columns agree with the record, where there is one. -/
def Consistent (p : Progress) : Prop := ∀ episodes, p.episodes = some episodes → p.Listed episodes

/-- The episodes listed in the record. -/
def listed (p : Progress) : List ℤ := p.episodes.getD []

theorem consistent_some {episodes : List ℤ} (h : p.episodes = some episodes) :
    p.Consistent ↔ p.Listed episodes := by
  constructor
  · intro hp
    exact hp episodes h
  · intro hl other ho
    obtain rfl : episodes = other := Option.some.inj (h.symm.trans ho)
    exact hl

/-- Where nothing is listed, only the number of lacking episodes is to agree. -/
theorem listed_nil_iff : p.Listed [] ↔ p.lack = 0 := by
  constructor
  · intro h
    simpa using h.lack
  · intro h
    exact ⟨by simpa using h, by simp, by simp⟩

/-! ## The first episode changes -/

theorem mem_range_succ {first last e : ℤ} :
    e ∈ Int.range first (last + 1) ↔ first ≤ e ∧ e ≤ last := by
  rw [Int.mem_range_iff]
  omega

theorem length_range_succ {first last : ℤ} (h : first ≤ last) :
    ((Int.range first (last + 1)).length : ℤ) = last - first + 1 := by
  simp only [Int.range, List.length_map, List.length_range]
  omega

theorem isLeast_range_succ {first last : ℤ} (h : first ≤ last) :
    IsLeast {e | e ∈ Int.range first (last + 1)} first := by
  refine ⟨mem_range_succ.mpr ⟨le_rfl, h⟩, ?_⟩
  intro e he
  exact (mem_range_succ.mp he).1

theorem range_succ_ne_nil {first last : ℤ} (h : first ≤ last) :
    Int.range first (last + 1) ≠ [] := by
  intro hnil
  have hfirst := (isLeast_range_succ h).1
  simp [hnil] at hfirst

/-- When the columns agree with a list from the first wanted episode to the last. -/
theorem listed_range_iff {first last : ℤ} (hpos : 0 < first) (h : first ≤ last) :
    p.Listed (Int.range first (last + 1)) ↔
      p.currentEp = first ∧ p.lack = last - first + 1 ∧ last ≤ p.total := by
  constructor
  · intro hl
    refine ⟨?_, ?_, ?_⟩
    · exact (hl.first (range_succ_ne_nil h)).unique (isLeast_range_succ h)
    · rw [hl.lack, length_range_succ h]
    · exact (hl.within last (mem_range_succ.mpr ⟨h, le_rfl⟩)).2
  · rintro ⟨hcurrent, hlack, htotal⟩
    refine ⟨?_, ?_, ?_⟩
    · rw [hlack, length_range_succ h]
    · intro e he
      have := mem_range_succ.mp he
      omega
    · intro _
      rw [hcurrent]
      exact isLeast_range_succ h

/-! ## One operation -/

/-- The condition on `update_rss_tv`.  Without a first episode, the number of lacking episodes
that it writes is the one that is there, and no listed episode lies beyond the total that it
writes.  With a first episode up to the total it goes by, the column `TOTAL` is no smaller than
that; with another one, the columns of a row it may not write say that nothing is lacking, and
nothing is listed where no total is given. -/
def UpdateFits (owned : Bool) (u : TvUpdate) (p : Progress) : Prop :=
  let last := u.totalNum.getD 0
  match u.currentEp with
  | none => owned → ∀ episodes, p.episodes = some episodes →
      u.lack.getD p.lack = p.lack ∧ ∀ e ∈ episodes, e ≤ u.total.getD p.total
  | some cur =>
    if 0 < cur ∧ cur ≤ last then
      if owned then last ≤ u.total.getD p.total
      else p.currentEp = cur ∧ p.lack = last - cur + 1 ∧ last ≤ p.total
    else (owned ∨ p.lack = 0) ∧ (u.total = none → p.listed = [])

/-- `update_rss_tv` with a first episode and no total leaves something listed. -/
def UpdateKeeps (owned : Bool) (u : TvUpdate) (p : Progress) : Prop :=
  u.currentEp ≠ none → u.total = none → p.listed ≠ [] → (p.update owned u).listed ≠ []

theorem syncEpisodes_of_currentEp {u : TvUpdate} {cur : ℤ} (h : u.currentEp = some cur) :
    u.syncEpisodes = some (if 0 < cur ∧ cur ≤ u.totalNum.getD 0 then
      Int.range cur (u.totalNum.getD 0 + 1) else []) := by
  rw [TvUpdate.syncEpisodes, h]
  cases htotal : u.totalNum with
  | some total => rfl
  | none =>
    have hnot : ¬(0 < cur ∧ cur ≤ 0) := by omega
    simp [hnot]

/-- Without a first episode only the columns change. -/
theorem consistent_update_of_none {u : TvUpdate} {owned : Bool} (hp : p.Consistent)
    (hcur : u.currentEp = none) : (p.update owned u).Consistent ↔ p.UpdateFits owned u := by
  have hsync : u.syncEpisodes = none := by rw [TvUpdate.syncEpisodes, hcur]; rfl
  cases owned with
  | false => simpa [update, hsync, UpdateFits, hcur] using hp
  | true =>
    simp only [update, updateColumns, hsync, hcur, UpdateFits, Consistent, Option.none_or,
      Option.getD_none, if_true, forall_true_left]
    refine forall₂_congr fun episodes hepisodes => ?_
    have hl := hp episodes hepisodes
    constructor
    · intro h
      exact ⟨h.lack.trans hl.lack.symm, fun e he => (h.within e he).2⟩
    · rintro ⟨hlack, htotal⟩
      refine ⟨hlack.trans hl.lack, ?_, hl.first⟩
      intro e he
      exact ⟨(hl.within e he).1, htotal e he⟩

/-- With a first episode the record is written, and the columns where the user owns the row. -/
theorem consistent_update_of_some {u : TvUpdate} {owned : Bool} {cur : ℤ}
    (hcur : u.currentEp = some cur) :
    ((p.update owned u).Consistent ∧ p.UpdateKeeps owned u) ↔ p.UpdateFits owned u := by
  have hsync := syncEpisodes_of_currentEp hcur
  by_cases hin : 0 < cur ∧ cur ≤ u.totalNum.getD 0
  · rw [if_pos hin] at hsync
    have hrecord : (p.update owned u).episodes =
        some (Int.range cur (u.totalNum.getD 0 + 1)) := by
      cases owned <;> simp [update, updateColumns, hsync]
    have hkeeps : p.UpdateKeeps owned u := by
      intro _ _ _
      rw [listed, hrecord]
      exact range_succ_ne_nil hin.2
    rw [and_iff_left hkeeps, consistent_some hrecord, listed_range_iff hin.1 hin.2]
    cases owned with
    | false => simp [update, UpdateFits, hcur, hin]
    | true =>
      simp [update, updateColumns, UpdateFits, hcur, hin, hsync, length_range_succ hin.2]
  · rw [if_neg hin] at hsync
    have hrecord : (p.update owned u).episodes = some [] := by
      cases owned <;> simp [update, updateColumns, hsync]
    have hkeeps : p.UpdateKeeps owned u ↔ (u.total = none → p.listed = []) := by
      simp [UpdateKeeps, hcur, listed, hrecord]
    rw [hkeeps, consistent_some hrecord, listed_nil_iff]
    cases owned with
    | false => simp [update, UpdateFits, hcur, hin]
    | true => simp [update, updateColumns, UpdateFits, hcur, hin, hsync]

/-- **`update_rss_tv`**: when it leaves the columns and the record in agreement. -/
theorem consistent_update_iff {u : TvUpdate} {owned : Bool} (hp : p.Consistent) :
    ((p.update owned u).Consistent ∧ p.UpdateKeeps owned u) ↔ p.UpdateFits owned u := by
  cases hcur : u.currentEp with
  | none =>
    have hkeeps : p.UpdateKeeps owned u := fun h => absurd hcur h
    rw [and_iff_left hkeeps]
    exact consistent_update_of_none hp hcur
  | some cur => exact consistent_update_of_some hcur

/-- `update_rss_tv_lack` does not ask whether the episodes are among those of the season. -/
theorem consistent_updateLack_iff {lack : List ℤ} :
    (p.updateLack lack).Consistent ↔ ∀ e ∈ lack, 1 ≤ e ∧ e ≤ p.total := by
  rw [@consistent_some (p.updateLack lack) lack rfl]
  constructor
  · intro h
    exact h.within
  · intro h
    refine ⟨rfl, h, ?_⟩
    intro hne
    have hall : lack.filter (0 ≤ ·) = lack := by
      refine List.filter_eq_self.mpr ?_
      intro e he
      have := (h e he).1
      exact decide_eq_true (by omega)
    obtain ⟨least, hleast⟩ := Option.ne_none_iff_exists'.mp (mt List.min?_eq_none_iff.mp hne)
    have hcurrent : (p.updateLack lack).currentEp = least := by
      simp [updateLack, hall, hleast]
    rw [hcurrent]
    exact List.min?_eq_some_iff.mp hleast

/-- `update_rss_tv_total` writes all parts from one list. -/
theorem consistent_updateTotal (totalEp : ℤ) (lack : List ℤ) :
    (p.updateTotal totalEp lack).Consistent := by
  rw [consistent_some rfl]
  refine ⟨rfl, ?_, ?_⟩
  · intro e he
    exact of_decide_eq_true (List.mem_filter.mp he).2
  · intro hne
    obtain ⟨first, hfirst⟩ := Option.ne_none_iff_exists'.mp (mt List.head?_eq_none_iff.mp hne)
    have hcurrent : (p.updateTotal totalEp lack).currentEp = first := by
      rw [updateTotal, hfirst, Option.getD_some]
    rw [hcurrent]
    exact isLeast_of_head?_sortedSet hfirst

/-! ## The refresh -/

/-- The condition on a refresh that finds a record, or takes its absence for nothing: something
is listed, or the total does not grow, or the next episode is the first wanted one. -/
def RefreshFits (p : Progress) (totalEpisode : ℤ) : Prop :=
  p.listed ≠ [] ∨ totalEpisode ≤ max p.total 0 ∨ p.currentEp = max p.total 0 + 1

/-- The first of the last `lack` episodes. -/
def firstOfLast (p : Progress) : ℤ := max 0 (min p.total (p.total - p.lack)) + 1

/-- The condition on the refresh of an anchored subscription: one without a record is taken to
lack its last episodes, as many as its column says. -/
def AnchorFits (p : Progress) (totalEpisode : ℤ) : Prop :=
  match p.episodes with
  | some _ => p.RefreshFits totalEpisode
  | none => totalEpisode < p.firstOfLast ∨ p.currentEp = p.firstOfLast

theorem mem_refreshed {totalEpisode e : ℤ} {episodes : List ℤ} :
    e ∈ p.refreshed totalEpisode episodes ↔
      (e ∈ episodes ∨ p.total < e) ∧ 1 ≤ e ∧ e ≤ totalEpisode := by
  simp only [refreshed, List.mem_filter, mem_sortedSet, List.mem_append, mem_range_succ,
    decide_eq_true_eq]
  constructor
  · rintro ⟨h, hin⟩
    exact ⟨h.imp_right fun h => by omega, hin⟩
  · rintro ⟨h, hin⟩
    exact ⟨h.imp_right fun h => by omega, hin⟩

/-- A refresh writes no first episode: it has to be the least one already. -/
theorem consistent_refreshed_iff {totalEpisode : ℤ} {episodes : List ℤ} {q : Progress}
    (hrecord : q.episodes = some (p.refreshed totalEpisode episodes))
    (hlack : q.lack = (p.refreshed totalEpisode episodes).length)
    (htotal : q.total = totalEpisode) :
    q.Consistent ↔ (p.refreshed totalEpisode episodes ≠ [] →
      IsLeast {e | e ∈ p.refreshed totalEpisode episodes} q.currentEp) := by
  rw [consistent_some hrecord]
  constructor
  · intro h
    exact h.first
  · intro h
    refine ⟨hlack, ?_, h⟩
    intro e he
    rw [htotal]
    exact (mem_refreshed.mp he).2

/-- The least of the episodes from `first` to `last`, where there are any. -/
theorem isLeast_span_iff {l : List ℤ} {first last c : ℤ} (h : ∀ e, e ∈ l ↔ first ≤ e ∧ e ≤ last) :
    (l ≠ [] → IsLeast {e | e ∈ l} c) ↔ last < first ∨ c = first := by
  by_cases hlast : last < first
  · have hnil : l = [] := by
      refine List.eq_nil_iff_forall_not_mem.mpr fun e he => ?_
      have := (h e).mp he
      omega
    simp [hnil, hlast]
  · have hfirst : IsLeast {e | e ∈ l} first :=
      ⟨(h first).mpr ⟨le_rfl, not_lt.mp hlast⟩, fun e he => ((h e).mp he).1⟩
    have hne : l ≠ [] := List.ne_nil_of_mem hfirst.1
    simp only [hne, hlast, ne_eq, not_false_eq_true, forall_true_left, false_or]
    constructor
    · intro hc
      exact hc.unique hfirst
    · rintro rfl
      exact hfirst

/-- New episodes do not change the first one, where something is listed. -/
theorem isLeast_refreshed {totalEpisode : ℤ} (hp : p.Listed p.listed) (hne : p.listed ≠ [])
    (hmissing : p.refreshed totalEpisode p.listed ≠ []) :
    IsLeast {e | e ∈ p.refreshed totalEpisode p.listed} p.currentEp := by
  have hfirst := hp.first hne
  have hcurrent := hp.within p.currentEp hfirst.1
  have hle : ∀ e ∈ p.refreshed totalEpisode p.listed, p.currentEp ≤ e := by
    intro e he
    rcases (mem_refreshed.mp he).1 with h | h
    · exact hfirst.2 h
    · omega
  obtain ⟨e, he⟩ := List.exists_mem_of_ne_nil _ hmissing
  refine ⟨mem_refreshed.mpr ⟨.inl hfirst.1, hcurrent.1, ?_⟩, hle⟩
  exact (hle e he).trans (mem_refreshed.mp he).2.2

theorem refreshFits_iff {totalEpisode : ℤ} (hp : p.Consistent) :
    (p.refreshed totalEpisode p.listed ≠ [] →
      IsLeast {e | e ∈ p.refreshed totalEpisode p.listed} p.currentEp) ↔
        p.RefreshFits totalEpisode := by
  by_cases hne : p.listed = []
  · have hmem : ∀ e, e ∈ p.refreshed totalEpisode p.listed ↔
        max p.total 0 + 1 ≤ e ∧ e ≤ totalEpisode := by
      intro e
      rw [mem_refreshed, hne]
      simp only [List.not_mem_nil, false_or]
      omega
    rw [isLeast_span_iff hmem, RefreshFits]
    simp [hne, Int.lt_add_one_iff]
  · have hlisted : p.Listed p.listed := by
      cases hrecord : p.episodes with
      | none => simp [listed, hrecord] at hne
      | some episodes => simpa [listed, hrecord] using hp episodes hrecord
    simp only [RefreshFits, hne, ne_eq, not_false_eq_true, true_or, iff_true]
    exact isLeast_refreshed hlisted hne

/-- A refresh that changes nothing fits. -/
theorem refreshFits_of_le {totalEpisode : ℤ} (h : totalEpisode ≤ max p.total 0) :
    p.RefreshFits totalEpisode := .inr (.inl h)

/-- **The refresh of a subscription without an anchor**. -/
theorem consistent_refreshTmdb_iff {titleChanged : Bool} {counted : ℤ} (hp : p.Consistent) :
    (p.refreshTmdb titleChanged counted).Consistent ↔
      p.RefreshFits (p.refreshTotal counted) := by
  rw [refreshTmdb]
  split_ifs with hchanged
  · rw [consistent_refreshed_iff (p := p) rfl rfl rfl]
    exact refreshFits_iff hp
  · have hle : p.refreshTotal counted ≤ max p.total 0 := by
      by_cases hzero : p.refreshTotal counted = 0
      · omega
      · have htotal : p.total = p.refreshTotal counted := by
          by_contra hne
          exact hchanged ⟨hzero, .inr hne⟩
        omega
    exact iff_of_true hp (refreshFits_of_le hle)

theorem refreshed_existing_of_some {totalEpisode : ℤ} {episodes : List ℤ}
    (h : p.episodes = some episodes) :
    p.refreshed totalEpisode p.existing = p.refreshed totalEpisode p.listed := by
  rw [existing, listed, h, Option.getD_some, Option.getD_some]

theorem mem_refreshed_existing_of_none {totalEpisode e : ℤ} (h : p.episodes = none) :
    e ∈ p.refreshed totalEpisode p.existing ↔ p.firstOfLast ≤ e ∧ e ≤ totalEpisode := by
  rw [mem_refreshed, existing, h, Option.getD_none, mem_range_succ, firstOfLast]
  omega

theorem anchorFits_iff {totalEpisode : ℤ} (hp : p.Consistent) :
    (p.refreshed totalEpisode p.existing ≠ [] →
      IsLeast {e | e ∈ p.refreshed totalEpisode p.existing} p.currentEp) ↔
        p.AnchorFits totalEpisode := by
  cases hrecord : p.episodes with
  | none =>
    rw [isLeast_span_iff fun _ => mem_refreshed_existing_of_none hrecord]
    simp [AnchorFits, hrecord]
  | some episodes =>
    rw [refreshed_existing_of_some hrecord, refreshFits_iff hp]
    simp [AnchorFits, hrecord]

/-- **The refresh of an anchored subscription**. -/
theorem consistent_refreshAnchor_iff {counted : ℤ} (hp : p.Consistent) :
    (p.refreshAnchor counted).Consistent ↔ p.AnchorFits (p.refreshTotal counted) := by
  rw [refreshAnchor]
  split_ifs with hzero
  · rw [consistent_refreshed_iff (p := p) rfl rfl rfl]
    exact anchorFits_iff hp
  · have hzero : p.refreshTotal counted = 0 := not_not.mp hzero
    refine iff_of_true hp ?_
    rw [hzero, AnchorFits]
    cases p.episodes with
    | none =>
      refine .inl ?_
      rw [firstOfLast]
      omega
    | some episodes => exact refreshFits_of_le (le_max_right _ _)

end Progress

/-! ## Runs of calls -/

namespace TvCall

variable {tvs : List TvSubscription} {c : TvCall} {s : TvSubscription}

/-- The condition on a call, for the row that it writes. -/
def FitsRow (s : TvSubscription) : TvCall → Prop
  | update _ user u => s.progress.UpdateFits (TvUpdate.owned user s.userId) u
  | lack _ _ _ _ episodes => ∀ e ∈ episodes, 1 ≤ e ∧ e ≤ s.progress.total
  | total _ _ _ => True
  | refreshTmdb _ _ _ counted => s.progress.RefreshFits (s.progress.refreshTotal counted)
  | refreshAnchor _ _ _ counted => s.progress.AnchorFits (s.progress.refreshTotal counted)

/-- The condition on a call and the table before it. -/
def Fits (tvs : List TvSubscription) (c : TvCall) : Prop :=
  ∀ s ∈ tvs, c.target tvs = some s.id → c.FitsRow s

/-- The call changes the first episode, and gives no total. -/
def CurrentAlone : TvCall → Prop
  | update _ _ u => u.currentEp ≠ none ∧ u.total = none
  | _ => False

/-- A call that changes the first episode alone discards no list. -/
def Keeps (tvs : List TvSubscription) (c : TvCall) : Prop :=
  c.CurrentAlone → ∀ s ∈ tvs, s.progress.listed ≠ [] → (c.rowAfter tvs s).progress.listed ≠ []

/-- The columns of every row agree with its record. -/
def AllConsistent (tvs : List TvSubscription) : Prop := ∀ s ∈ tvs, s.progress.Consistent

theorem progress_onRow_refreshTmdb (rssid : ℕ) (title year : Text) (counted : ℤ) :
    ((refreshTmdb rssid title year counted).onRow s).progress =
      s.progress.refreshTmdb (s.name ≠ title) counted := by
  simp only [onRow, TvSubscription.refreshTmdb]
  split_ifs with h
  · rfl
  · simp only [Progress.refreshTmdb, decide_eq_true_eq]
    rw [if_neg h]

/-- What a call does with its row: it leaves the columns and the record in agreement, and
discards no list for a first episode alone, exactly where it fits. -/
theorem onRow_consistent_iff (hs : s.progress.Consistent) :
    ((c.onRow s).progress.Consistent ∧
      (c.CurrentAlone → s.progress.listed ≠ [] → (c.onRow s).progress.listed ≠ [])) ↔
        c.FitsRow s := by
  cases c with
  | update rssid user u =>
    rw [FitsRow, ← Progress.consistent_update_iff hs]
    simp only [CurrentAlone, and_imp]
    rfl
  | lack title year season rssid episodes =>
    simp only [CurrentAlone, false_imp_iff, and_true]
    exact Progress.consistent_updateLack_iff
  | total rssid totalEp lackEpisodes =>
    simp only [CurrentAlone, false_imp_iff, and_true]
    exact iff_of_true (Progress.consistent_updateTotal _ _) trivial
  | refreshTmdb rssid title year counted =>
    simp only [CurrentAlone, false_imp_iff, and_true, progress_onRow_refreshTmdb]
    exact Progress.consistent_refreshTmdb_iff hs
  | refreshAnchor rssid title year counted =>
    simp only [CurrentAlone, false_imp_iff, and_true]
    exact Progress.consistent_refreshAnchor_iff hs

theorem rowAfter_consistent_iff (hs : s.progress.Consistent) :
    ((c.rowAfter tvs s).progress.Consistent ∧ (c.CurrentAlone → s.progress.listed ≠ [] →
      (c.rowAfter tvs s).progress.listed ≠ [])) ↔ (c.target tvs = some s.id → c.FitsRow s) := by
  by_cases htarget : c.target tvs = some s.id
  · rw [rowAfter, if_pos htarget, onRow_consistent_iff hs]
    simp [htarget]
  · rw [rowAfter, if_neg htarget]
    exact iff_of_true ⟨hs, fun _ h => h⟩ fun h => absurd h htarget

/-- **One call**. -/
theorem run_consistent_iff (htvs : AllConsistent tvs) :
    (AllConsistent (c.run tvs) ∧ c.Keeps tvs) ↔ c.Fits tvs := by
  have hrun : AllConsistent (c.run tvs) ↔
      ∀ s ∈ tvs, (c.rowAfter tvs s).progress.Consistent := by
    rw [AllConsistent, run, List.forall_mem_map]
  rw [hrun]
  constructor
  · rintro ⟨hconsistent, hkeeps⟩ s hs
    refine (rowAfter_consistent_iff (htvs s hs)).mp ⟨hconsistent s hs, ?_⟩
    intro halone
    exact hkeeps halone s hs
  · intro hfits
    have hrow := fun s hs => (rowAfter_consistent_iff (htvs s hs)).mpr (hfits s hs)
    exact ⟨fun s hs => (hrow s hs).1, fun halone s hs => (hrow s hs).2 halone⟩

/-- **The progress of the subscriptions**: along any sequence of calls on a table whose columns
and records agree, they agree in every state, and a change of the first episode alone discards
no list, exactly where every call fits. -/
theorem progress_consistent_iff (tvs : List TvSubscription) (calls : List TvCall)
    (htvs : AllConsistent tvs) :
    ((∀ n, AllConsistent ((calls.take n).foldl run tvs)) ∧ Run.Along run Keeps tvs calls) ↔
      Run.Along run Fits tvs calls := by
  rw [Run.along_step_iff AllConsistent, and_iff_right htvs, ← Run.along_and]
  refine Run.along_congr_of_kept AllConsistent ?_ ?_ htvs
  · intro tvs c h
    exact run_consistent_iff h
  · intro tvs c _ h
    exact h.1

/-- A subscription that lacks the episodes three to five. -/
def threeLacking : TvSubscription :=
  { id := 1
    name := Text.of "Show"
    progress := { currentEp := 3, total := 5, lack := 3, episodes := some [3, 4, 5] } }

theorem allConsistent_threeLacking : AllConsistent [threeLacking] := by
  intro s hs
  obtain rfl := List.mem_singleton.mp hs
  refine (Progress.consistent_some rfl).mpr ?_
  exact (@Progress.listed_range_iff _ 3 5 (by decide) (by decide)).mpr (by decide)

/-- The third episode arrives, and the season grows by one. -/
theorem progress_consistent_growing :
    (∀ n, AllConsistent (([lack [] [] [] 1 [4, 5], total 1 6 [6]].take n).foldl run
      [threeLacking])) ∧
      Run.Along run Keeps [threeLacking] [lack [] [] [] 1 [4, 5], total 1 6 [6]] := by
  refine (progress_consistent_iff _ _ allConsistent_threeLacking).mpr ?_
  refine ⟨?_, ?_, trivial⟩
  · intro s hs _
    obtain rfl := List.mem_singleton.mp hs
    show ∀ e ∈ [4, 5], 1 ≤ e ∧ e ≤ (5 : ℤ)
    decide
  · intro s _ _
    trivial

/-- A first episode without a total empties the record. -/
theorem first_episode_alone_discards :
    AllConsistent [threeLacking] ∧
      run [threeLacking] (update 1 none { currentEp := some 4 }) =
        [{ threeLacking with
          progress := { currentEp := 4, total := 5, lack := 0, episodes := some [] } }] ∧
      ¬((∀ n, AllConsistent (([update 1 none { currentEp := some 4 }].take n).foldl run
        [threeLacking])) ∧
        Run.Along run Keeps [threeLacking] [update 1 none { currentEp := some 4 }]) := by
  refine ⟨allConsistent_threeLacking, by decide, ?_⟩
  rintro ⟨_, hkeeps, _⟩
  refine hkeeps ⟨by decide, rfl⟩ threeLacking (by decide) (by decide) ?_
  decide

end TvCall

end WolfNas
