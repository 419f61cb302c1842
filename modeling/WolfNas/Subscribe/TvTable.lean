import WolfNas.Lib.SortedSet
import WolfNas.Subscribe.LackList
import WolfNas.Subscribe.Rows
import Mathlib.Data.Int.Range

/-!
# The table of TV subscriptions

Where a TV subscription stands is told by four columns of its row and by a record of the
episodes that it lacks, in a table of its own.  Five operations of the repository write them,
each its own part.

## Main definitions

* `Progress` — the four columns and the record.
* `TvSubscription` — a row with its record.
* `TvUpdate`, `Progress.update` — `update_rss_tv`.
* `Progress.updateLack`, `Progress.updateTotal`, `Progress.updateTmdb`,
  `Progress.updateEpisodes` — the other operations.
* `Progress.refreshTmdb`, `Progress.refreshAnchor` — how the refresh pairs them.
* `TvCall`, `TvCall.run` — a call, on the whole table.
* `TvRow.progress` — the progress of the row that the consumers of the list read.
* `Consumer.Recounts`, `Consumer.recount` — the consumers that count the episodes again, and what
  the operations make of it.

## Main results

* `TvRow.progress_updateLack`, `TvRow.progress_updateTotal`, `TvRow.progress_refresh` — what
  the consumers write is what the operations of the repository write.
* `TvRow.progress_recounts` — and so it is over any sequence of recounts.
-/

namespace WolfNas

/-- The user behind a call. -/
structure UserContext where
  userId : ℕ
  isSuperadmin : Bool := false
  deriving DecidableEq, Repr

/-- Where a TV subscription stands; columns that are not set are zero. -/
structure Progress where
  totalEp : ℤ := 0
  currentEp : ℤ := 0
  total : ℤ := 0
  lack : ℤ := 0
  /-- The record of the lacking episodes. -/
  episodes : Option (List ℤ) := none
  deriving DecidableEq, Repr

/-- A row of the table, with its record. -/
structure TvSubscription where
  id : ℕ
  name : Text
  year : Text := []
  season : Text := []
  userId : Option ℕ := none
  progress : Progress := {}
  deriving DecidableEq, Repr

/-- What `update_rss_tv` is given; a field that is not given is left as it is. -/
structure TvUpdate where
  name : Option Text := none
  year : Option Text := none
  season : Option Text := none
  totalEp : Option ℤ := none
  currentEp : Option ℤ := none
  total : Option ℤ := none
  lack : Option ℤ := none
  deriving DecidableEq, Repr

namespace TvUpdate

variable (u : TvUpdate)

/-- `update_fields.get("TOTAL") or update_fields.get("TOTAL_EP")`. -/
def totalNum : Option ℤ := if u.total.getD 0 ≠ 0 then u.total else u.totalEp

/-- The new list of lacking episodes, where the first episode changes. -/
def syncEpisodes : Option (List ℤ) :=
  u.currentEp.map fun cur =>
    match u.totalNum with
    | some total => if 0 < cur ∧ cur ≤ total then Int.range cur (total + 1) else []
    | none => []

/-- The user may write the row. -/
def owned (user : Option UserContext) (userId : Option ℕ) : Bool :=
  match user with
  | none => true
  | some user => user.isSuperadmin || userId = some user.userId

end TvUpdate

namespace Progress

variable (p : Progress)

/-! ## The operations -/

/-- The part of `update_rss_tv` that writes the row. -/
def updateColumns (u : TvUpdate) : Progress :=
  { p with
    totalEp := u.totalEp.getD p.totalEp
    currentEp := u.currentEp.getD p.currentEp
    total := u.total.getD p.total
    lack := match u.syncEpisodes with
      | some episodes => episodes.length
      | none => u.lack.getD p.lack }

/-- `update_rss_tv`.  The record is written for every user, the row for its owner. -/
def update (owned : Bool) (u : TvUpdate) : Progress :=
  let recorded := { p with episodes := u.syncEpisodes.or p.episodes }
  if owned then recorded.updateColumns u else recorded

/-- `update_rss_tv_lack`, once the row is found. -/
def updateLack (lackEpisodes : List ℤ) : Progress :=
  { p with
    lack := lackEpisodes.length
    episodes := some lackEpisodes
    currentEp := ((lackEpisodes.filter (0 ≤ ·)).min?).getD p.currentEp }

/-- `update_rss_tv_total`. -/
def updateTotal (totalEp : ℤ) (lackEpisodes : List ℤ) : Progress :=
  let merged := (sortedSet (p.episodes.getD [] ++ lackEpisodes)).filter fun e =>
    1 ≤ e ∧ e ≤ totalEp
  { totalEp := totalEp
    total := totalEp
    lack := merged.length
    currentEp := merged.head?.getD p.currentEp
    episodes := some merged }

/-- `update_rss_tv_tmdb`, with a number of the work. -/
def updateTmdb (total lack : ℤ) : Progress := { p with total := total, lack := lack }

/-- `update_rss_tv_episodes`. -/
def updateEpisodes (episodes : List ℤ) : Progress := { p with episodes := some episodes }

/-! ## The refresh -/

/-- The number of episodes a refresh goes by: a number set by the user comes first. -/
def refreshTotal (counted : ℤ) : ℤ := if p.totalEp ≠ 0 then p.totalEp else counted

/-- The lacking episodes after a refresh. -/
def refreshed (totalEpisode : ℤ) (episodes : List ℤ) : List ℤ :=
  (sortedSet (episodes ++ Int.range (p.total + 1) (totalEpisode + 1))).filter fun e =>
    1 ≤ e ∧ e ≤ totalEpisode

/-- The lacking episodes that `_refresh_anchor_tv` goes by. -/
def existing : List ℤ :=
  p.episodes.getD (Int.range (max (p.total - p.lack) 0 + 1) (p.total + 1))

/-- `refresh_rss_metainfo` of a subscription without an anchor. -/
def refreshTmdb (titleChanged : Bool) (counted : ℤ) : Progress :=
  let totalEpisode := p.refreshTotal counted
  if totalEpisode ≠ 0 ∧ (titleChanged ∨ p.total ≠ totalEpisode) then
    let missing := p.refreshed totalEpisode (p.episodes.getD [])
    (p.updateTmdb totalEpisode missing.length).updateEpisodes missing
  else p

/-- `_refresh_anchor_tv`. -/
def refreshAnchor (counted : ℤ) : Progress :=
  let totalEpisode := p.refreshTotal counted
  if totalEpisode ≠ 0 then
    let missing := p.refreshed totalEpisode p.existing
    (p.update true { total := some totalEpisode, lack := some missing.length }).updateEpisodes
      missing
  else p

end Progress

/-! ## The table -/

/-- A call that writes the progress of a subscription. -/
inductive TvCall
  /-- `update_rss_tv`. -/
  | update (rssid : ℕ) (user : Option UserContext) (fields : TvUpdate)
  /-- `update_rss_tv_lack`; the row is found by its title where no id is given. -/
  | lack (title year season : Text) (rssid : ℕ) (episodes : List ℤ)
  /-- `update_rss_tv_total`. -/
  | total (rssid : ℕ) (totalEp : ℤ) (lackEpisodes : List ℤ)
  /-- The refresh of a subscription without an anchor: `update_rss_tv_tmdb` and
  `update_rss_tv_episodes`. -/
  | refreshTmdb (rssid : ℕ) (title year : Text) (counted : ℤ)
  /-- The refresh of an anchored subscription: `update_rss_tv` and `update_rss_tv_episodes`. -/
  | refreshAnchor (rssid : ℕ) (title year : Text) (counted : ℤ)

namespace TvSubscription

variable (s : TvSubscription)

/-- The other columns that `update_rss_tv` writes. -/
def rename (u : TvUpdate) : TvSubscription :=
  { s with
    name := u.name.getD s.name
    year := u.year.getD s.year
    season := (u.season.map normalizeTvSeason).getD s.season }

/-- `update_rss_tv` on its row. -/
def update (user : Option UserContext) (u : TvUpdate) : TvSubscription :=
  let owned := TvUpdate.owned user s.userId
  let renamed := if owned then s.rename u else s
  { renamed with progress := s.progress.update owned u }

/-- A refresh writes its title and year where it writes anything. -/
def refreshTmdb (title year : Text) (counted : ℤ) : TvSubscription :=
  let totalEpisode := s.progress.refreshTotal counted
  if totalEpisode ≠ 0 ∧ (s.name ≠ title ∨ s.progress.total ≠ totalEpisode) then
    { s with
      name := title
      year := year
      progress := s.progress.refreshTmdb (s.name ≠ title) counted }
  else s

/-- `_refresh_anchor_tv` on its row. -/
def refreshAnchor (title year : Text) (counted : ℤ) : TvSubscription :=
  { s with name := title, year := year, progress := s.progress.refreshAnchor counted }

end TvSubscription

namespace TvCall

/-- The id of the row that a call writes. -/
def target (tvs : List TvSubscription) : TvCall → Option ℕ
  | update rssid _ _ | total rssid _ _ | refreshTmdb rssid _ _ _ | refreshAnchor rssid _ _ _ =>
    if rssid = 0 then none else some rssid
  | lack title year season rssid _ =>
    if rssid ≠ 0 then some rssid
    else if title = [] then none
    else (tvs.find? fun s => s.name = title ∧ s.year = year ∧ seasonFilter s.season season).map
      TvSubscription.id

/-- What a call does with its row. -/
def onRow (s : TvSubscription) : TvCall → TvSubscription
  | update _ user u => s.update user u
  | lack _ _ _ _ episodes => { s with progress := s.progress.updateLack episodes }
  | total _ totalEp lackEpisodes =>
    { s with progress := s.progress.updateTotal totalEp lackEpisodes }
  | refreshTmdb _ title year counted => s.refreshTmdb title year counted
  | refreshAnchor _ title year counted => s.refreshAnchor title year counted

/-- A row of the table after a call. -/
def rowAfter (tvs : List TvSubscription) (c : TvCall) (s : TvSubscription) : TvSubscription :=
  if c.target tvs = some s.id then c.onRow s else s

/-- A call on the table. -/
def run (tvs : List TvSubscription) (c : TvCall) : List TvSubscription := tvs.map (c.rowAfter tvs)

end TvCall

/-! ## The rows of the consumers -/

/-- A list of numbers of episodes, as the repository keeps it. -/
def asEpisodes (episodes : List ℕ) : List ℤ := episodes.map Nat.cast

/-- The progress of a row that the consumers of the list read. -/
def TvRow.progress (s : TvRow) : Progress :=
  { totalEp := s.totalEp
    currentEp := s.currentEp
    total := s.total
    lack := s.lack
    episodes := s.episodes.map asEpisodes }

section AsEpisodes

variable {l : List ℕ}

theorem filter_nonneg_asEpisodes : (asEpisodes l).filter (0 ≤ ·) = asEpisodes l := by
  refine List.filter_eq_self.mpr ?_
  intro e he
  obtain ⟨n, _, rfl⟩ := List.mem_map.mp he
  simp

theorem min?_asEpisodes : (asEpisodes l).min? = l.min?.map Nat.cast := by
  cases h : l.min? with
  | none => simp_all [asEpisodes]
  | some n =>
    obtain ⟨hmem, hle⟩ := List.min?_eq_some_iff.mp h
    refine List.min?_eq_some_iff.mpr ⟨List.mem_map_of_mem hmem, ?_⟩
    intro e he
    obtain ⟨m, hm, rfl⟩ := List.mem_map.mp he
    exact Int.ofNat_le.mpr (hle m hm)

theorem sortedSet_asEpisodes : sortedSet (asEpisodes l) = asEpisodes (sortedSet l) := by
  have hinj : Function.Injective (Nat.cast : ℕ → ℤ) := fun _ _ => Int.ofNat.inj
  rw [sortedSet, asEpisodes, List.dedup_map_of_injective hinj]
  symm
  refine List.map_insertionSort (· ≤ ·) (· ≤ ·) Nat.cast l.dedup ?_
  intro m _ n _
  exact Int.ofNat_le.symm

theorem filter_range_asEpisodes (total : ℕ) :
    (asEpisodes l).filter (fun e : ℤ => 1 ≤ e ∧ e ≤ total) =
      asEpisodes (l.filter fun e => 1 ≤ e ∧ e ≤ total) := by
  rw [asEpisodes, List.filter_map]
  refine congrArg _ (List.filter_congr ?_)
  intro n _
  simp only [Function.comp_apply, decide_eq_decide]
  omega

theorem asEpisodes_range' (first n : ℕ) :
    asEpisodes (List.range' first n) = Int.range first (first + n) := by
  simp [asEpisodes, Int.range, List.range'_eq_map_range]

theorem asEpisodes_append (l l' : List ℕ) : asEpisodes (l ++ l') = asEpisodes l ++ asEpisodes l' :=
  List.map_append

@[simp] theorem length_asEpisodes : (asEpisodes l).length = l.length := List.length_map _

theorem getD_asEpisodes (record : Option (List ℕ)) (default : List ℕ) :
    (record.map asEpisodes).getD (asEpisodes default) = asEpisodes (record.getD default) := by
  cases record <;> rfl

end AsEpisodes

namespace TvRow

variable (s : TvRow)

theorem progress_updateLack (lack : List ℕ) :
    (s.updateLack lack).progress = s.progress.updateLack (asEpisodes lack) := by
  have hcurrent : ((lack.min?.getD s.currentEp : ℕ) : ℤ) =
      (lack.min?.map Nat.cast).getD s.currentEp := by
    cases lack.min? <;> rfl
  simp [progress, updateLack, Progress.updateLack, filter_nonneg_asEpisodes, min?_asEpisodes,
    hcurrent]

theorem progress_updateTotal (totalEp : ℕ) (lackEpisodes : List ℕ) :
    (Consumer.act (.updateTotal totalEp lackEpisodes) s (s.episodes.getD [])).progress =
      s.progress.updateTotal totalEp (asEpisodes lackEpisodes) := by
  have hmerged : ((sortedSet (s.progress.episodes.getD [] ++ asEpisodes lackEpisodes)).filter
      fun e : ℤ => 1 ≤ e ∧ e ≤ totalEp) = asEpisodes ((sortedSet (s.episodes.getD [] ++
        lackEpisodes)).filter fun e => 1 ≤ e ∧ e ≤ totalEp) := by
    have hrecord : s.progress.episodes.getD [] = asEpisodes (s.episodes.getD []) :=
      getD_asEpisodes s.episodes []
    rw [hrecord, ← asEpisodes_append, sortedSet_asEpisodes, filter_range_asEpisodes]
  have hhead : ∀ merged : List ℕ, ((merged.head?.getD s.currentEp : ℕ) : ℤ) =
      (asEpisodes merged).head?.getD s.currentEp := by
    intro merged
    cases merged <;> rfl
  rw [Progress.updateTotal, hmerged]
  simp only [progress, Consumer.act, hhead, length_asEpisodes, Option.map_some]

theorem refreshed_progress (total : ℕ) (episodes : List ℕ) :
    s.progress.refreshed total (asEpisodes episodes) =
      asEpisodes (Consumer.refreshed s total episodes) := by
  have hnew : Int.range (s.progress.total + 1) (total + 1) =
      asEpisodes (List.range' (s.total + 1) (total - s.total)) := by
    have hlength : ((total : ℤ) + 1 - (s.total + 1)).toNat = total - s.total := by omega
    simp [asEpisodes, Int.range, List.range'_eq_map_range, progress]
  rw [Progress.refreshed, Consumer.refreshed, hnew, ← asEpisodes_append, sortedSet_asEpisodes,
    filter_range_asEpisodes]

theorem progress_refreshTotal (counted : ℕ) :
    s.progress.refreshTotal counted = (s.refreshTotal counted : ℕ) := by
  by_cases h : s.totalEp = 0
  · simp [Progress.refreshTotal, refreshTotal, progress, h]
  · simp [Progress.refreshTotal, refreshTotal, progress, h]

/-- The refresh of a subscription writes what `update_rss_tv_tmdb` and `update_rss_tv_episodes`
write. -/
theorem progress_refresh (hstate : s.state ≠ none) (titleChanged : Bool) (counted : ℕ) :
    (Consumer.run s (.refresh titleChanged counted)).progress =
      s.progress.refreshTmdb titleChanged counted := by
  have hrecord : s.progress.episodes.getD [] = asEpisodes (s.episodes.getD []) :=
    getD_asEpisodes s.episodes []
  have htotal : s.progress.total = (s.total : ℤ) := rfl
  simp only [Consumer.run, if_neg hstate, Consumer.reads, Progress.refreshTmdb,
    progress_refreshTotal, hrecord, refreshed_progress, htotal, ne_eq, Int.natCast_eq_zero,
    Int.natCast_inj]
  split_ifs
  · simp [Consumer.act, progress, Progress.updateTmdb, Progress.updateEpisodes]
  · rfl

/-- The refresh of an anchored subscription writes what `update_rss_tv` and
`update_rss_tv_episodes` write. -/
theorem progress_refreshAnchor (hstate : s.state ≠ none) (counted : ℕ) :
    (Consumer.run s (.refreshAnchor counted)).progress = s.progress.refreshAnchor counted := by
  have hexisting : s.progress.existing = asEpisodes (s.episodes.getD
      (List.range' (s.total - s.lack + 1) (s.total - (s.total - s.lack)))) := by
    cases hrecord : s.episodes with
    | some episodes => simp [Progress.existing, progress, hrecord]
    | none =>
      have hfirst : max ((s.total : ℤ) - s.lack) 0 = (s.total - s.lack : ℕ) := by omega
      have hlast : ((s.total : ℤ) + 1) =
          (s.total - s.lack + 1 : ℕ) + (s.total - (s.total - s.lack) : ℕ) := by omega
      rw [Option.getD_none, asEpisodes_range', ← hlast]
      simp [Progress.existing, progress, hrecord, hfirst]
  simp only [Consumer.run, if_neg hstate, Consumer.reads, Progress.refreshAnchor,
    progress_refreshTotal, hexisting, refreshed_progress, ne_eq, Int.natCast_eq_zero]
  split_ifs
  · rfl
  · simp only [Consumer.act, progress, Progress.update, Progress.updateColumns,
      Progress.updateEpisodes, TvUpdate.syncEpisodes, if_true, length_asEpisodes]
    cases s.episodes <;> rfl

end TvRow

/-! ### One recount after another -/

namespace Consumer

/-- The consumers that count the episodes of a subscription again. -/
def Recounts : Consumer → Prop
  | updateTotal _ _ | refresh _ _ | refreshAnchor _ => True
  | search _ | rss _ | transferred _ _ | manual _ => False

/-- What they make of the progress, by the operations of the repository. -/
def recount (p : Progress) : Consumer → Progress
  | updateTotal totalEp lackEpisodes => p.updateTotal totalEp (asEpisodes lackEpisodes)
  | refresh titleChanged counted => p.refreshTmdb titleChanged counted
  | refreshAnchor counted => p.refreshAnchor counted
  | search _ | rss _ | transferred _ _ | manual _ => p

end Consumer

namespace TvRow

variable {s : TvRow}

/-- **One recount** writes what the operations write, and leaves the state. -/
theorem progress_step {c : Consumer} (hstate : s.state ≠ none) (hc : c.Recounts) :
    (Consumer.run s c).state = s.state ∧ (Consumer.run s c).progress = c.recount s.progress := by
  cases c with
  | updateTotal totalEp lackEpisodes =>
    have hrun : Consumer.run s (.updateTotal totalEp lackEpisodes) =
        Consumer.act (.updateTotal totalEp lackEpisodes) s (s.episodes.getD []) := by
      simp [Consumer.run, hstate, Consumer.reads]
    rw [hrun]
    exact ⟨rfl, s.progress_updateTotal totalEp lackEpisodes⟩
  | refresh titleChanged counted =>
    refine ⟨?_, s.progress_refresh hstate titleChanged counted⟩
    simp only [Consumer.run, if_neg hstate, Consumer.reads]
    split_ifs <;> rfl
  | refreshAnchor counted =>
    refine ⟨?_, s.progress_refreshAnchor hstate counted⟩
    simp only [Consumer.run, if_neg hstate, Consumer.reads]
    split_ifs <;> rfl
  | search | rss | transferred | manual => exact hc.elim

/-- **The row refines the progress**: over any sequence of recounts the columns and the record of
the row are what the operations of the repository make of them. -/
theorem progress_recounts {consumers : List Consumer} (hstate : s.state ≠ none)
    (h : ∀ c ∈ consumers, c.Recounts) :
    (consumers.foldl Consumer.run s).progress =
      consumers.foldl Consumer.recount s.progress := by
  induction consumers generalizing s with
  | nil => rfl
  | cons c consumers ih =>
    obtain ⟨hc, hconsumers⟩ := List.forall_mem_cons.mp h
    obtain ⟨hkept, hprogress⟩ := progress_step hstate hc
    rw [List.foldl_cons, List.foldl_cons, ← hprogress]
    exact ih (hkept ▸ hstate) hconsumers

/-- The total is set, and the subscription is refreshed twice. -/
theorem progress_recounts_thrice :
    (([.updateTotal 3 [2], .refresh false 4, .refreshAnchor 5] : List Consumer).foldl Consumer.run
        { total := 2, lack := 1 }).progress =
      ([.updateTotal 3 [2], .refresh false 4, .refreshAnchor 5] : List Consumer).foldl
        Consumer.recount (progress { total := 2, lack := 1 }) :=
  progress_recounts (by decide) (by simp [Consumer.Recounts])

end TvRow

end WolfNas
