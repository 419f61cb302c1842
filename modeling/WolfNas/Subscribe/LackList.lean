import WolfNas.Lib.Run
import WolfNas.Lib.SortedSet

/-!
# The stored list of lacking episodes

A TV subscription may have a record of the episodes it still lacks.  Where it has none, every
consumer of the list carries its own default.  This module holds the consumers, each as the
list it reads from the row and what it then does with the row, and compares the default of
each with the list from the first wanted episode to the last.

## Main definitions

* `TvRow` — the columns of a subscription that the consumers read and write, with its record.
* `TvRow.explicit`, `TvRow.withRecord` — the lacking episodes an absent record stands for, and
  the row with those written down.
* `Consumer`, `Consumer.reads`, `Consumer.act`, `Consumer.run` — the consumers.
* `Consumer.Agrees` — a consumer takes an absent record for the explicit list.
* `Consumer.Harmless` — the condition on the row and the inputs under which it does.

## Main results

* `Consumer.agrees_iff` — the condition is exact.
* `Consumer.agree_along_iff` — the same along every run of consumers.
-/

namespace WolfNas

/-- The states of a subscription. -/
inductive SubscribeState
  | pending
  | searching
  | running
  | completed
  | error
  | cancelled
  deriving DecidableEq, Repr

/-- A TV subscription; columns that are not set are zero. -/
structure TvRow where
  currentEp : ℕ := 0
  total : ℕ := 0
  totalEp : ℕ := 0
  lack : ℕ := 0
  /-- None where the subscription was finished and its row deleted. -/
  state : Option SubscribeState := some .running
  /-- The record of the lacking episodes. -/
  episodes : Option (List ℕ) := none
  deriving DecidableEq, Repr

namespace TvRow

variable (s : TvRow)

/-- The first wanted episode. -/
def start : ℕ := if s.currentEp = 0 then 1 else s.currentEp

/-- The lacking episodes that an absent record stands for. -/
def explicit : List ℕ := List.range' s.start (s.total + 1 - s.start)

/-- The lacking episodes of the row. -/
def missing : List ℕ := s.episodes.getD s.explicit

/-- The row with its lacking episodes written down. -/
def withRecord : TvRow := { s with episodes := some s.missing }

/-- `update_rss_tv_lack`. -/
def updateLack (lack : List ℕ) : TvRow :=
  { s with
    episodes := some lack
    lack := lack.length
    currentEp := (lack.min?).getD s.currentEp }

/-- `update_rss_tv_state`. -/
def updateState (state : SubscribeState) : TvRow := { s with state := some state }

/-- The subscription is finished: its row and its record are deleted. -/
def finish : TvRow := { s with state := none, episodes := none }

end TvRow

/-- What a strategy does with the row after it has read the lacking episodes. -/
inductive RowWrite
  | state (state : SubscribeState)
  | lack (episodes : List ℕ)
  | finish

/-- One write. -/
def RowWrite.apply (s : TvRow) : RowWrite → TvRow
  | state st => s.updateState st
  | lack episodes => s.updateLack episodes
  | finish => s.finish

/-- The consumers of the list.  What a strategy does after it has read the list (the library
check, the downloads, the writes that follow from them) depends on the list it has read, and
not on the record. -/
inductive Consumer
  /-- The search of a TV subscription. -/
  | search (writes : List ℕ → List RowWrite)
  /-- An item of a feed that matches the subscription. -/
  | rss (writes : List ℕ → List RowWrite)
  /-- `handle_media_episode_transferred`. -/
  | transferred (downloaded : List ℕ) (totalEpisodes : ℕ)
  /-- `update_rss_tv_total`. -/
  | updateTotal (totalEp : ℕ) (lackEpisodes : List ℕ)
  /-- `refresh_rss_metainfo` of a subscription without an anchor. -/
  | refresh (titleChanged : Bool) (counted : ℕ)
  /-- `_refresh_anchor_tv`. -/
  | refreshAnchor (counted : ℕ)
  /-- `update_subscribe_tv_lack_by_episodes`. -/
  | manual (downloaded : List ℕ)

/-- The number of episodes a refresh goes by: a number set by the user comes first. -/
def TvRow.refreshTotal (s : TvRow) (counted : ℕ) : ℕ := if s.totalEp ≠ 0 then s.totalEp else counted

namespace Consumer

/-! ## Reading -/

/-- The lacking episodes a consumer reads; none where it ends before it reads them. -/
def reads (c : Consumer) (s : TvRow) : Option (List ℕ) :=
  match c with
  | search _ => some <| match s.episodes with
    | some episodes => episodes
    | none =>
      if s.currentEp ≠ 0 then List.range' s.currentEp (s.total + 1 - s.currentEp)
      else if 0 < s.total then List.range' 1 s.total
      else []
  | rss _ => some <| match s.episodes with
    | some episodes => episodes
    | none =>
      if s.currentEp ≠ 0 then List.range' s.currentEp (s.total + 1 - s.currentEp) else []
  | transferred downloaded totalEpisodes =>
    if downloaded = [] then none
    else some <| match s.episodes with
      | some (e :: es) => e :: es
      | _ => List.range' s.start (totalEpisodes + 1 - s.start)
  | updateTotal _ _ => some (s.episodes.getD [])
  | refresh titleChanged counted =>
    if s.refreshTotal counted ≠ 0 ∧ (titleChanged ∨ s.total ≠ s.refreshTotal counted) then
      some (s.episodes.getD [])
    else none
  | refreshAnchor counted =>
    if s.refreshTotal counted = 0 then none
    else some <| match s.episodes with
      | some episodes => episodes
      | none => List.range' (s.total - s.lack + 1) (s.total - (s.total - s.lack))
  | manual downloaded => if downloaded = [] then none else some (s.episodes.getD [])

/-! ## Acting -/

/-- The lacking episodes after a refresh. -/
def refreshed (s : TvRow) (total : ℕ) (episodes : List ℕ) : List ℕ :=
  (sortedSet (episodes ++ List.range' (s.total + 1) (total - s.total))).filter fun e =>
    1 ≤ e ∧ e ≤ total

/-- What a consumer does with the row, once it has read the lacking episodes. -/
def act (c : Consumer) (s : TvRow) (episodes : List ℕ) : TvRow :=
  match c with
  | search writes | rss writes => (writes episodes).foldl RowWrite.apply s
  | transferred downloaded totalEpisodes =>
    let lack := sortedSet (episodes.filter (· ∉ downloaded))
    if episodes = [] ∧ totalEpisodes = 0 then s
    else if lack = [] then s.finish
    else if s.state = some .completed then s.updateLack lack
    else (s.updateState .running).updateLack lack
  | updateTotal totalEp lackEpisodes =>
    let merged := (sortedSet (episodes ++ lackEpisodes)).filter fun e => 1 ≤ e ∧ e ≤ totalEp
    { s with
      totalEp := totalEp
      total := totalEp
      lack := merged.length
      currentEp := merged.head?.getD s.currentEp
      episodes := some merged }
  | refresh _ counted | refreshAnchor counted =>
    let missing := refreshed s (s.refreshTotal counted) episodes
    { s with total := s.refreshTotal counted, lack := missing.length, episodes := some missing }
  | manual downloaded =>
    let lack := sortedSet (episodes.filter (· ∉ downloaded))
    if lack = [] then s.updateState .completed
    else (s.updateState .running).updateLack lack

/-- A consumer at work; a subscription that was finished has no row to work on. -/
def run (s : TvRow) (c : Consumer) : TvRow :=
  if s.state = none then s
  else match c.reads s with
    | none => s
    | some episodes => c.act s episodes

/-! ## Agreement -/

/-- Two rows hold the same lacking episodes, number of them, and state. -/
structure SameStored (s t : TvRow) : Prop where
  missing : s.missing = t.missing
  lack : s.lack = t.lack
  state : s.state = t.state

/-- The consumer takes the absent record of the row for the explicit list: it reads that list,
if any, and leaves what it leaves of the row with the list written down. -/
structure Agrees (s : TvRow) (c : Consumer) : Prop where
  reads : ∀ episodes, c.reads s = some episodes → episodes = s.explicit
  stored : SameStored (run s c) (run s.withRecord c)

/-- No episode is lacking, or the consumer's own default says the same as the columns. -/
def Harmless (c : Consumer) (s : TvRow) : Prop :=
  match c with
  | search _ => True
  | rss _ => s.currentEp ≠ 0 ∨ s.total = 0
  | transferred downloaded totalEpisodes =>
    downloaded = [] ∨ totalEpisodes = s.total ∨ (s.total < s.start ∧ totalEpisodes < s.start)
  | updateTotal _ _ => s.total < s.start
  | refresh titleChanged counted =>
    s.refreshTotal counted = 0 ∨ (titleChanged = false ∧ s.total = s.refreshTotal counted) ∨
      s.total < s.start
  | refreshAnchor counted =>
    s.refreshTotal counted = 0 ∨ min s.lack s.total = s.total + 1 - s.start
  | manual downloaded => downloaded = [] ∨ s.total < s.start

end Consumer

/-! ## The explicit list -/

namespace TvRow

variable {s t : TvRow}

theorem start_pos : 1 ≤ s.start := by
  rw [start]
  split_ifs <;> omega

theorem explicit_eq_nil_iff : s.explicit = [] ↔ s.total < s.start := by
  rw [explicit, List.range'_eq_nil_iff]
  omega

/-- The row has no record of its lacking episodes. -/
def Absent (s : TvRow) : Prop := s.state ≠ none ∧ s.episodes = none

/-- The two rows are the same, or one has its lacking episodes written down. -/
def Related (s t : TvRow) : Prop := t = s ∨ (s.episodes = none ∧ t = s.withRecord)

theorem related_withRecord (s : TvRow) : Related s s.withRecord := by
  cases h : s.episodes with
  | none => exact .inr ⟨h, rfl⟩
  | some episodes =>
    refine .inl ?_
    cases s
    simp_all [withRecord, missing]

theorem Related.sameStored (h : Related s t) : Consumer.SameStored s t := by
  rcases h with rfl | ⟨_, rfl⟩
  · exact ⟨rfl, rfl, rfl⟩
  · exact ⟨rfl, rfl, rfl⟩

theorem Related.state_eq (h : Related s t) : t.state = s.state := h.sameStored.state.symm

/-- Every write keeps two rows related: it keeps the record or replaces it. -/
theorem Related.apply (h : Related s t) (write : RowWrite) :
    Related (write.apply s) (write.apply t) := by
  rcases h with rfl | ⟨hnone, rfl⟩
  · exact .inl rfl
  · cases write with
    | state st => exact .inr ⟨hnone, rfl⟩
    | lack episodes => exact .inl rfl
    | finish => exact .inl rfl

theorem Related.foldl_apply (h : Related s t) (writes : List RowWrite) :
    Related (writes.foldl RowWrite.apply s) (writes.foldl RowWrite.apply t) := by
  induction writes generalizing s t with
  | nil => exact h
  | cons write writes ih => exact ih (h.apply write)

end TvRow

namespace Consumer

open TvRow

variable {s t : TvRow} {c : Consumer}

/-- A consumer that has read the same list does the same to related rows. -/
theorem related_act (h : Related s t) (episodes : List ℕ) :
    Related (c.act s episodes) (c.act t episodes) := by
  cases c with
  | search writes => exact h.foldl_apply _
  | rss writes => exact h.foldl_apply _
  | transferred downloaded totalEpisodes =>
    simp only [act, h.state_eq]
    split_ifs
    · exact h
    · exact h.apply .finish
    · exact h.apply (.lack _)
    · exact (h.apply (.state _)).apply (.lack _)
  | updateTotal totalEp lackEpisodes =>
    rcases h with rfl | ⟨_, rfl⟩
    · exact .inl rfl
    · exact .inl rfl
  | refresh titleChanged counted =>
    rcases h with rfl | ⟨_, rfl⟩
    · exact .inl rfl
    · exact .inl rfl
  | refreshAnchor counted =>
    rcases h with rfl | ⟨_, rfl⟩
    · exact .inl rfl
    · exact .inl rfl
  | manual downloaded =>
    simp only [act]
    split_ifs
    · exact h.apply (.state _)
    · exact (h.apply (.state _)).apply (.lack _)

theorem range'_eq_explicit_iff (n : ℕ) :
    List.range' s.start n = s.explicit ↔ n = s.total + 1 - s.start := by
  constructor
  · intro h
    simpa [explicit] using congrArg List.length h
  · rintro rfl
    rfl

/-- The list that a refresh derives from the number of lacking episodes ends with the season,
as the explicit one does. -/
theorem lastEpisodes_eq_explicit_iff :
    List.range' (s.total - s.lack + 1) (s.total - (s.total - s.lack)) = s.explicit ↔
      min s.lack s.total = s.total + 1 - s.start := by
  have hpos : 1 ≤ s.start := start_pos
  have hlen : s.total - (s.total - s.lack) = min s.lack s.total := by omega
  constructor
  · intro h
    have := congrArg List.length h
    simp only [List.length_range', explicit] at this
    omega
  · intro h
    rw [explicit, hlen, h]
    by_cases hzero : s.total + 1 - s.start = 0
    · simp [hzero]
    · have hfirst : s.total - s.lack + 1 = s.start := by omega
      rw [hfirst]

/-- The lists a consumer reads from an absent record, against the explicit one. -/
theorem reads_iff (hnone : s.episodes = none) :
    (∀ episodes, c.reads s = some episodes → episodes = s.explicit) ↔ c.Harmless s := by
  have hstart : s.currentEp = 0 ∧ s.start = 1 ∨ s.currentEp ≠ 0 ∧ s.start = s.currentEp := by
    rw [start]
    split_ifs with hcur
    · exact .inl ⟨hcur, rfl⟩
    · exact .inr ⟨hcur, rfl⟩
  cases c with
  | search writes =>
    simp only [reads, hnone, Harmless, Option.some.injEq, forall_eq', iff_true]
    rcases hstart with ⟨hcur, hone⟩ | ⟨hcur, hone⟩
    · by_cases htotal : 0 < s.total
      · simp [hcur, htotal, explicit, hone]
      · simp [hcur, htotal, explicit_eq_nil_iff, hone]
        omega
    · simp [hcur, explicit, hone]
  | rss writes =>
    simp only [reads, hnone, Harmless, Option.some.injEq, forall_eq']
    rcases hstart with ⟨hcur, hone⟩ | ⟨hcur, hone⟩
    · simp [hcur, explicit_eq_nil_iff, hone]
    · simp [hcur, explicit, hone]
  | transferred downloaded totalEpisodes =>
    simp only [reads, hnone, Harmless]
    split_ifs with hnil
    · simp [hnil]
    · simp only [Option.some.injEq, forall_eq', range'_eq_explicit_iff, hnil, false_or]
      omega
  | updateTotal totalEp lackEpisodes =>
    simp [reads, hnone, Harmless, explicit_eq_nil_iff]
  | refresh titleChanged counted =>
    simp only [reads, hnone, Harmless, Option.getD_none]
    split_ifs with hchanged
    · simp only [Option.some.injEq, forall_eq']
      cases titleChanged <;> simp_all [explicit_eq_nil_iff]
    · simp only [false_imp_iff, implies_true, true_iff]
      cases titleChanged <;> simp_all
      omega
  | refreshAnchor counted =>
    simp only [reads, hnone, Harmless]
    split_ifs with hzero
    · simp [hzero]
    · simp only [Option.some.injEq, forall_eq', hzero, false_or]
      exact lastEpisodes_eq_explicit_iff
  | manual downloaded =>
    simp only [reads, hnone, Harmless, Option.getD_none]
    split_ifs with hnil
    · simp [hnil]
    · simp [hnil, explicit_eq_nil_iff]

/-- A harmless consumer reads the same from the row with its lacking episodes written down. -/
theorem reads_withRecord (hnone : s.episodes = none) (h : c.Harmless s) :
    c.reads s.withRecord = c.reads s := by
  have hreads := (reads_iff hnone).mpr h
  have hmissing : s.missing = s.explicit := by simp [missing, hnone]
  have htotal : ∀ counted, s.withRecord.refreshTotal counted = s.refreshTotal counted :=
    fun _ => rfl
  cases c with
  | search writes => exact congrArg some (hmissing.trans (hreads _ rfl).symm)
  | rss writes => exact congrArg some (hmissing.trans (hreads _ rfl).symm)
  | transferred downloaded totalEpisodes =>
    simp only [reads, withRecord, hmissing, hnone] at hreads ⊢
    split_ifs at hreads ⊢ with hnil
    · rfl
    · have heq := hreads _ rfl
      cases hexplicit : s.explicit with
      | nil => rfl
      | cons e es => simp [← hexplicit, heq]
  | updateTotal totalEp lackEpisodes => exact congrArg some (hmissing.trans (hreads _ rfl).symm)
  | refresh titleChanged counted =>
    have hcolumn : s.withRecord.total = s.total := rfl
    simp only [reads, htotal, hcolumn] at hreads ⊢
    split_ifs at hreads ⊢ with hchanged
    · exact congrArg some (hmissing.trans (hreads _ rfl).symm)
    · rfl
  | refreshAnchor counted =>
    simp only [reads, htotal] at hreads ⊢
    split_ifs at hreads ⊢ with hzero
    · rfl
    · exact congrArg some (hmissing.trans (hreads _ rfl).symm)
  | manual downloaded =>
    simp only [reads] at hreads ⊢
    split_ifs at hreads ⊢ with hnil
    · rfl
    · exact congrArg some (hmissing.trans (hreads _ rfl).symm)

theorem related_run (h : Related s t) (hc : s.Absent → c.Harmless s) :
    Related (run s c) (run t c) := by
  rw [run, run, h.state_eq]
  by_cases hstate : s.state = none
  · rw [if_pos hstate, if_pos hstate]
    exact h
  · rw [if_neg hstate, if_neg hstate]
    have hreads : c.reads t = c.reads s := by
      rcases h with rfl | ⟨hnone, rfl⟩
      · rfl
      · exact reads_withRecord hnone (hc ⟨hstate, hnone⟩)
    rw [hreads]
    cases c.reads s with
    | none => exact h
    | some episodes => exact related_act h episodes

theorem related_foldl {cs : List Consumer} (h : Related s t)
    (hcs : Run.Along run (fun s c => s.Absent → c.Harmless s) s cs) :
    Related (cs.foldl run s) (cs.foldl run t) := by
  induction cs generalizing s t with
  | nil => exact h
  | cons c cs ih => exact ih (related_run h hcs.1) hcs.2

/-- **When an absent record is harmless**: a consumer takes it for the explicit list exactly
where nothing is lacking or the consumer's own default says the same. -/
theorem agrees_iff (habsent : s.Absent) : Agrees s c ↔ c.Harmless s := by
  constructor
  · intro h
    exact (reads_iff habsent.2).mp h.reads
  · intro h
    exact ⟨(reads_iff habsent.2).mpr h,
      (related_run (related_withRecord s) fun _ => h).sameStored⟩

/-- **Runs from an absent record**: along any sequence of consumers, each takes an absent
record for the explicit list, and the row is left after each as it is left where the list was
written down beforehand, exactly where each consumer that finds no record is harmless. -/
theorem agree_along_iff (s : TvRow) (cs : List Consumer) :
    (Run.Along run (fun s c => s.Absent → Agrees s c) s cs ∧
        ∀ n, SameStored ((cs.take n).foldl run s) ((cs.take n).foldl run s.withRecord)) ↔
      Run.Along run (fun s c => s.Absent → c.Harmless s) s cs := by
  have halong : Run.Along run (fun s c => s.Absent → Agrees s c) s cs ↔
      Run.Along run (fun s c => s.Absent → c.Harmless s) s cs := by
    refine Run.along_congr (fun _ _ => True) (fun _ _ _ _ => trivial) ?_ trivial
    intro s c _ _
    exact forall_congr' fun habsent => agrees_iff habsent
  rw [halong, and_iff_left_iff_imp]
  intro h n
  exact (related_foldl (related_withRecord s) (h.take n)).sameStored

/-- A subscription from its third to its fifth episode, without a record. -/
def unrecorded : TvRow := { currentEp := 3, total := 5, lack := 3 }

/-- The manual download of one of its episodes ends the subscription, which lacks two more. -/
theorem manual_download_completes :
    ¬Agrees unrecorded (.manual [3]) ∧ (run unrecorded (.manual [3])).state = some .completed ∧
      run unrecorded.withRecord (.manual [3]) =
        { currentEp := 4, total := 5, lack := 2, episodes := some [4, 5] } := by
  refine ⟨?_, by decide, by decide⟩
  intro h
  exact absurd (h.reads [] rfl) (by decide)

end Consumer

end WolfNas
